import EventCheck.Proofs.Json.Texts
import EventCheck.Proofs.Store.Ingestion
import Mathlib.Data.List.Forall2

/-! # Batches with elements that do not fit

    An envelope may hold elements whose events a store would not take, because their
    payloads are no JSON or nest too deep, and elements whose events it takes but that
    cannot be logged then. The first of either sort ends the ingestion.

    - `Body.fits`: the event of an element would be stored if it came alone. Only its
      payload decides that, as long as its name and time can be shown (`fits_iff`).
    - `Body.logs`: the event of an element can be logged.
    - `Event.Tells`: an event has the name and the payload of an element.
    - `batch_complete_iff`: the elements that are reached are stored, in order. These are
      all that fit if and only if none that fits stands behind one that does not, or
      behind one that cannot be logged.
-/

namespace EventCheck

/-! ## Section 1: Elements that fit -/

namespace Body

/-- The payload of the event that an element is. -/
def payloadWith (header element : Value) : Value := .obj [("meta", header), ("event", element)]

/-- **Would the event of the element be stored if it came alone?** -/
def fits (header : Value) (request : Option Request) (now : String) (element : Value) : Bool :=
  isShowable element && (offerOf header element request).acceptable now

/-- Can the event of the element be logged? -/
def logs (header element : Value) : Bool := header.isLoggable && element.isLoggable

/-- An element has a name and a time if these can be shown, and then only its payload decides. -/
theorem fits_iff {header element : Value} {request : Option Request} {now : String} :
    fits header request now element = true ↔ isShowable element = true ∧
      ∃ v, (payloadWith header element).toJson? = some v ∧ v.storable = true := by
  unfold fits
  rw [Bool.and_eq_true, Incoming.acceptable_iff 0]
  refine and_congr_right fun _ => ?_
  constructor
  · rintro ⟨e, haccept⟩
    obtain ⟨-, -, hpayload, -⟩ := Incoming.of_accept haccept
    exact ⟨e.payload, Incoming.payload?_eq_some_iff.mp hpayload⟩
  · rintro ⟨v, hv⟩
    obtain ⟨time, htime⟩ := time?_timeOf element (offerOf header element request) rfl now
    exact ⟨_, Incoming.accept_of_fits rfl (Incoming.payload?_eq_some_iff.mpr hv) htime 0⟩

end Body

/-- **The event tells of the element** of an envelope with this header: it has its name and, beside
    the header, itself as payload. -/
structure Event.Tells (header element : Value) (e : Event) : Prop where
  name : e.name = Body.nameOf element
  payload : (Body.payloadWith header element).toJson? = some e.payload

theorem Event.tells_of_accept {header element : Value} {request : Option Request} {id : Nat}
    {now : String} {e : Event} (h : (Body.offerOf header element request).accept id now = .ok e) :
    e.Tells header element := by
  obtain ⟨-, hname, hpayload, -⟩ := Incoming.of_accept h
  exact ⟨(Option.some.inj hname).symm, (Incoming.payload?_eq_some_iff.mp hpayload).1⟩

/-! ## Section 2: When all that fits is reached -/

section Reached

variable {α : Type} {fits goesOn : α → Bool} {l : List α}

/-- **All that fits is reached** if and only if what stands in front of something that fits does fit
    and lets what is behind it be reached. -/
theorem reachedOf_eq_filter_iff : reachedOf fits goesOn l = l.filter fits ↔
    l.Pairwise fun x y => fits y = true → fits x = true ∧ goesOn x = true := by
  induction l with
  | nil => simp [reachedOf]
  | cons x rest ih =>
    rw [List.pairwise_cons]
    -- behind the end of the way nothing at all may fit
    have hend : ¬ (fits x = true ∧ goesOn x = true) →
        ((∀ y ∈ rest, ¬ fits y = true) ↔ (∀ y ∈ rest, fits y = true → fits x = true ∧
          goesOn x = true) ∧ rest.Pairwise fun x y => fits y = true → fits x = true ∧
            goesOn x = true) := by
      intro hx
      constructor
      · intro hnone
        refine ⟨fun y hy hfit => absurd hfit (hnone y hy), ?_⟩
        exact List.pairwise_of_forall_mem_list fun y _ z hz hfit => absurd hfit (hnone z hz)
      · rintro ⟨hfront, -⟩ y hy hfit
        exact hx (hfront y hy hfit)
    by_cases hx : fits x = true
    · rw [List.filter_cons_of_pos hx]
      by_cases hgoes : goesOn x = true
      · rw [reachedOf_cons_of_goesOn hx hgoes, List.cons.injEq, ih]
        simp [hx, hgoes]
      · rw [reachedOf_cons_of_ends hx hgoes, List.cons.injEq, eq_comm (a := []),
          List.filter_eq_nil_iff, ← hend fun h => hgoes h.2]
        simp
    · rw [reachedOf_cons_of_misfit hx, List.filter_cons_of_neg hx, eq_comm, List.filter_eq_nil_iff,
        ← hend fun h => hx h.1]

theorem fits_of_mem_reached {x : α} (h : x ∈ reachedOf fits goesOn l) : fits x = true := by
  induction l with
  | nil => cases h
  | cons y rest ih =>
    rw [reachedOf] at h
    split at h
    · next hy =>
      rcases List.mem_cons.mp h with rfl | hin
      · exact hy
      · split at hin
        · exact ih hin
        · cases hin
    · cases h

/-- What is reached is among all that fits. -/
theorem reachedOf_sublist_filter : (reachedOf fits goesOn l).Sublist (l.filter fits) := by
  have hall : (reachedOf fits goesOn l).filter fits = reachedOf fits goesOn l :=
    List.filter_eq_self.mpr fun x hx => fits_of_mem_reached hx
  rw [← hall]
  exact (reachedOf_front fits goesOn l).sublist.filter fits

/-- Where nothing ends the way, all in front of the first misfit is reached. -/
theorem reachedOf_eq_takeWhile (h : ∀ x ∈ l, goesOn x = true) :
    reachedOf fits goesOn l = l.takeWhile fits := by
  induction l with
  | nil => rfl
  | cons x rest ih =>
    by_cases hx : fits x = true
    · rw [reachedOf_cons_of_goesOn hx (h x List.mem_cons_self), List.takeWhile_cons_of_pos hx,
        ih fun y hin => h y (List.mem_cons_of_mem _ hin)]
    · rw [reachedOf_cons_of_misfit hx, List.takeWhile_cons_of_neg hx]

end Reached

/-! ## Section 3: Batches -/

namespace Store

variable {raw header : Value} {elements : List Value}

/-- **A batch is stored as far as it is reached.** -/
theorem ingest_batch (h : Body.ofRaw raw = .envelope header elements) (s : Store)
    (request : Option Request) (now : String) :
    List.Forall₂ (fun element e => e.Tells header element)
      (reachedOf (Body.fits header request now) (Body.logs header) elements)
      (s.ingest raw request now).added := by
  have hreached : reachedOf (Incoming.acceptable now) Incoming.isLoggable
      ((Body.ofRaw raw).offers request) =
        (reachedOf (Body.fits header request now) (Body.logs header) elements).map
          fun element => Body.offerOf header element request := by
    rw [h, Body.offers, reachedOf_map, reachedOf_takeWhile]
    refine congrArg _ (congrArg (fun goesOn => reachedOf _ goesOn _) ?_)
    funext element
    exact Body.isLoggable_offerOf header element request
  obtain ⟨⟨hlength, hbecome⟩, -⟩ := s.stores_ingest raw request now
  rw [hreached] at hlength hbecome
  refine List.forall₂_iff_get.mpr ⟨?_, ?_⟩
  · rw [hlength, List.length_map]
  · intro i hi hi'
    apply Event.tells_of_accept
    refine hbecome i _ _ ?_ (List.getElem?_eq_getElem hi')
    rw [List.getElem?_map]
    exact congrArg (Option.map _) (List.getElem?_eq_getElem hi)

/-- **When the elements of a batch are independent.** An ingestion adds the events of the elements
    that are reached, in order: those in front of the first one that does not fit, or up to the
    first one that cannot be logged. If all can be logged these are the elements in front of the
    first misfit. So each element that fits on its own is stored, and one that does not costs
    only itself, if and only if no element that fits stands behind one that does not, or behind
    one that cannot be logged. -/
theorem batch_complete_iff (h : Body.ofRaw raw = .envelope header elements) (s : Store)
    (request : Option Request) (now : String) :
    let i := s.ingest raw request now
    let fits := Body.fits header request now
    let logs := Body.logs header
    i.store.events = s.events ++ i.added ∧
    List.Forall₂ (fun element e => e.Tells header element) (reachedOf fits logs elements) i.added ∧
    ((∀ x ∈ elements, logs x = true) →
      List.Forall₂ (fun element e => e.Tells header element) (elements.takeWhile fits) i.added) ∧
    (List.Forall₂ (fun element e => e.Tells header element) (elements.filter fits) i.added ↔
      elements.Pairwise fun x y => fits y = true → fits x = true ∧ logs x = true) := by
  intro i fits logs
  have hstores := s.stores_ingest raw request now
  have hfront : List.Forall₂ (fun element e => e.Tells header element) (reachedOf fits logs elements)
      i.added := s.ingest_batch h request now
  refine ⟨by rw [hstores.store], hfront, ?_, ?_⟩
  · intro hall
    rw [← reachedOf_eq_takeWhile hall]
    exact hfront
  · rw [← reachedOf_eq_filter_iff]
    constructor
    · intro hall
      -- both are told by the same events, so they are as many
      apply reachedOf_sublist_filter.eq_of_length
      rw [hfront.length_eq, hall.length_eq]
    · intro hsame
      rw [← hsame]
      exact hfront

/-- Three elements, the second of which is no JSON. -/
def mixedBatch : Value :=
  .obj [("events", .arr [.obj [("name", .str "login")], .tuple [], .obj [("name", .str "logout")]])]

/-- The first element is stored, and the last one is lost with the second. -/
theorem mixedBatch_incomplete :
    Body.ofRaw mixedBatch = .envelope .null
        [.obj [("name", .str "login")], .tuple [], .obj [("name", .str "logout")]] ∧
      List.Forall₂ (fun element e => Event.Tells .null element e) [.obj [("name", .str "login")]]
        (empty.ingest mixedBatch none "noon").added ∧
      ¬ List.Forall₂ (fun element e => Event.Tells .null element e)
        [.obj [("name", .str "login")], .obj [("name", .str "logout")]]
        (empty.ingest mixedBatch none "noon").added := by
  have h : Body.ofRaw mixedBatch = .envelope .null
      [.obj [("name", .str "login")], .tuple [], .obj [("name", .str "logout")]] := rfl
  obtain ⟨-, hfront, -, hall⟩ := batch_complete_iff h empty none "noon"
  refine ⟨h, hfront, fun hboth => ?_⟩
  have hpairs := hall.mp hboth
  simp only [List.pairwise_cons] at hpairs
  have hsecond := hpairs.2.1 (.obj [("name", .str "logout")]) List.mem_cons_self rfl
  cases hsecond.1

/-! ## Section 4: A batch with an element that nests too deep -/

/-- What follows the first element in an envelope that holds one element more. -/
def lastElement : List Char :=
  ',' :: '{' :: '"' :: ("name".toList ++ '"' :: ':' :: '"' :: ("logout".toList ++ ['"', '}', ']', '}']))

/-- An envelope of two elements. The first one is brackets that nest 256 deep. -/
def spoiledText : String :=
  String.ofList ('{' :: '"' :: ("events".toList ++ '"' :: ':' :: '[' ::
    (Json.brackets 255 ++ lastElement)))

theorem read?_spoiledText : Json.read? spoiledText =
    some (.obj [("events", .arr [Json.nested 255, .obj [("name", .str "logout")]])]) := by
  -- from the innermost construct out, each with what follows it
  have hname : Json.Reads 987 ('"' :: ("logout".toList ++ ['"', '}', ']', '}'])) (.str "logout")
      ['}', ']', '}'] :=
    Json.reads_str (by decide) 987 _
  have hnameKey : Json.ReadsKey (lastElement.drop 2) "name"
      ('"' :: ("logout".toList ++ ['"', '}', ']', '}'])) :=
    Json.readsKey_plain (by decide) _
  have hlast : Json.Reads 988 (lastElement.drop 1) (.obj [("name", .str "logout")]) [']', '}'] :=
    Json.reads_obj (Json.readsFields_last rfl hnameKey hname rfl) rfl rfl
  have hdeep : Json.Reads 988 (Json.brackets 255 ++ lastElement) (Json.nested 255) lastElement :=
    Json.reads_brackets (by decide) lastElement
  have hitems : Json.ReadsItems 988 true (Json.brackets 255 ++ lastElement)
      [Json.nested 255, .obj [("name", .str "logout")]] ['}'] :=
    Json.readsItems_more rfl hdeep rfl (Json.readsItems_last rfl hlast rfl)
  have hevents : Json.Reads 989 ('[' :: (Json.brackets 255 ++ lastElement))
      (.arr [Json.nested 255, .obj [("name", .str "logout")]]) ['}'] :=
    Json.reads_arr hitems rfl
  have heventsKey : Json.ReadsKey
      ('"' :: ("events".toList ++ '"' :: ':' :: '[' :: (Json.brackets 255 ++ lastElement)))
      "events" ('[' :: (Json.brackets 255 ++ lastElement)) :=
    Json.readsKey_plain (by decide) _
  apply Json.read?_of_reads
  · show some '{' ≠ some '\ufeff'
    decide
  · exact Json.reads_obj (Json.readsFields_last rfl heventsKey hevents rfl) rfl rfl

theorem ofRaw_spoiledText : Body.ofRaw (.str spoiledText) =
    .envelope .null [.ofJson (Json.nested 255), .obj [("name", .str "logout")]] := by
  show Body.ofText spoiledText = _
  rw [Body.ofText, read?_spoiledText]
  rfl

/-- The second element would be stored if it came alone, and nothing is stored at all. -/
theorem spoiledText_loses_all :
    Body.ofRaw (.str spoiledText) =
        .envelope .null [.ofJson (Json.nested 255), .obj [("name", .str "logout")]] ∧
      Body.fits .null none "noon" (.obj [("name", .str "logout")]) = true ∧
      (empty.ingest (.str spoiledText) none "noon").added = [] := by
  refine ⟨ofRaw_spoiledText, rfl, ?_⟩
  have hdeep : ¬ Body.fits .null none "noon" (.ofJson (Json.nested 255)) = true := by
    rw [Body.fits_iff]
    rintro ⟨-, v, hv, hstorable⟩
    have hpayload : Body.payloadWith .null (.ofJson (Json.nested 255)) =
        .ofJson (.obj [("meta", .null), ("event", Json.nested 255)]) := rfl
    rw [hpayload, Value.toJson?_ofJson] at hv
    cases hv
    -- an element nests no deeper than its payload
    have hinner : (Json.nested 255).storable = true :=
      Json.storable_of_leads (.field (List.mem_cons_of_mem _ List.mem_cons_self) (.here _)) hstorable
    rw [Json.storable_nested_iff] at hinner
    exact absurd hinner (by decide)
  have hfront := empty.ingest_batch ofRaw_spoiledText none "noon"
  rw [reachedOf_cons_of_misfit hdeep] at hfront
  exact List.forall₂_nil_left_iff.mp hfront

end Store

end EventCheck
