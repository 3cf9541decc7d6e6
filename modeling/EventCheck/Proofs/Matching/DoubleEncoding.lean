import EventCheck.Proofs.Json.Recoding

/-! # Double encoding loses no match

    An event may hold texts of containers where it might hold the containers, texts of
    such texts, and texts of containers that hold texts themselves. Whatever pattern it
    matched without them it matches with them.

    - `satisfies_of_opened`: a pattern that is a container asks only for what a value
      opens to.
    - `satisfies_of_recodes`: what is encoded at one place satisfies what it did.
    - `Value.double_encoding_keeps_matches`: the same for any number of places, together
      with the converse for the root and with the law it rests on, that what is written
      is read as what it was.
-/

namespace EventCheck

namespace Json

/-! ## Section 1: One place -/

/-- **A container as a pattern asks only for what a value opens to.** -/
theorem satisfies_of_opened {u v pattern : Json} (hp : pattern.isLeaf = false)
    (h : u.opened? = v.opened?) : u.satisfies pattern = v.satisfies pattern := by
  cases pattern with
  | arr wanted => rw [satisfies, satisfies, h]
  | obj wanted => rw [satisfies, satisfies, h]
  | _ => cases hp

/-- So the text of a container satisfies the containers that the container does. -/
theorem satisfies_encoded {v pattern : Json} (h : v.Legible maxNesting) (hv : v.isLeaf = false)
    (hp : pattern.isLeaf = false) (n : Nat) :
    (encoded n v).satisfies pattern = v.satisfies pattern := by
  have hencoded := opened?_of_opens (opens_encoded h hv n)
  have hself := opened?_of_opens (opens_encoded h hv 0)
  exact satisfies_of_opened hp (hencoded.trans hself.symm)

/-- No container satisfies a leaf. -/
theorem isLeaf_of_satisfies {event pattern : Json} (hs : event.satisfies pattern = true)
    (hevent : event.isLeaf = false) : pattern.isLeaf = false := by
  cases hp : pattern.isLeaf with
  | false => rfl
  | true =>
    rw [satisfies_leaf hp, hevent] at hs
    cases hs

/-- **What is encoded at one place satisfies what it did before.** -/
theorem satisfies_of_recodes {event event' pattern : Json} {depth : Nat} (h : event.Recodes event')
    (hevent : event.Legible depth) (hdepth : depth ≤ maxNesting)
    (hs : event.satisfies pattern = true) : event'.satisfies pattern = true := by
  induction h generalizing pattern depth with
  | @text v hv n =>
    rw [satisfies_encoded (hevent.mono hdepth) hv (isLeaf_of_satisfies hs hv)]
    exact hs
  | @inField front rest key v v' h ih =>
    obtain ⟨d, rfl⟩ := hevent.exists_depth rfl
    have hv : v.Legible d := (legible_obj_iff.mp hevent).2 (key, v) (by simp)
    cases pattern with
    | obj wanted =>
      obtain ⟨fields, hopen, hall⟩ := satisfies_obj_iff.mp hs
      cases hopen
      refine satisfies_obj_iff.mpr ⟨_, .itself nofun, ?_⟩
      intro k w hin
      obtain ⟨value, hget, hvalue⟩ := hall k w hin
      -- another field, or the one in which something is encoded
      rcases Keyed.get?_replace v' hget with hsame | ⟨rfl, hnew⟩
      · exact ⟨value, hsame, hvalue⟩
      · exact ⟨v', hnew, ih hv (by omega) hvalue⟩
    | arr wanted =>
      obtain ⟨items, hopen, -⟩ := satisfies_arr_iff.mp hs
      cases hopen
    | _ => cases isLeaf_of_satisfies hs rfl
  | @inElement front rest v v' h ih =>
    obtain ⟨d, rfl⟩ := hevent.exists_depth rfl
    have hv : v.Legible d := legible_arr_iff.mp hevent v (by simp)
    cases pattern with
    | arr wanted =>
      obtain ⟨items, hopen, hall⟩ := satisfies_arr_iff.mp hs
      cases hopen
      refine satisfies_arr_iff.mpr ⟨_, .itself nofun, ?_⟩
      intro w hin
      obtain ⟨item, hitem, hsat⟩ := hall w hin
      rcases List.mem_append.mp hitem with hfront | hitem
      · exact ⟨item, List.mem_append_left _ hfront, hsat⟩
      · rcases List.mem_cons.mp hitem with rfl | hrest
        · exact ⟨v', by simp, ih hv (by omega) hsat⟩
        · exact ⟨item, List.mem_append_right _ (List.mem_cons_of_mem _ hrest), hsat⟩
    | obj wanted =>
      obtain ⟨fields, hopen, -⟩ := satisfies_obj_iff.mp hs
      cases hopen
    | _ => cases isLeaf_of_satisfies hs rfl

/-! ## Section 2: Any number of places -/

/-- **Encoding at any number of places loses no match.** -/
theorem satisfies_of_recoded {event event' pattern : Json} (h : event.Recoded event')
    (hevent : event.Legible maxNesting) (hs : event.satisfies pattern = true) :
    event'.satisfies pattern = true := by
  have hboth : event'.Legible maxNesting ∧ event'.satisfies pattern = true := by
    induction h with
    | refl => exact ⟨hevent, hs⟩
    | tail _ hstep ih =>
      obtain ⟨hlegible, hmatch⟩ := ih
      exact ⟨hlegible.recodes hstep, satisfies_of_recodes hstep hlegible (Nat.le_refl _) hmatch⟩
  exact hboth.2

end Json

namespace Value

/-- **Double encoding loses no match.** Within the limits of texts, the text of a value is read as
    that value. So an event in which containers at any places were replaced by their texts, encoded
    once or more, those around others that were replaced before included, satisfies whatever
    pattern the event satisfied. For the text of a container and a pattern that is one, the answer
    is the same as for the container. -/
theorem double_encoding_keeps_matches :
    (∀ v : Json, v.Legible Json.maxNesting → Json.read? v.ascii = some v) ∧
    (∀ event event' pattern : Json, event.Legible Json.maxNesting → event.Recoded event' →
      (ofJson event).satisfies (ofJson pattern) = .ok true →
      (ofJson event').satisfies (ofJson pattern) = .ok true) ∧
    (∀ event pattern : Json, event.Legible Json.maxNesting → event.isLeaf = false →
      pattern.isLeaf = false →
      (ofJson (.str event.ascii)).satisfies (ofJson pattern) =
        (ofJson event).satisfies (ofJson pattern)) := by
  simp only [satisfies_ofJson, Except.ok.injEq]
  refine ⟨?_, ?_, ?_⟩
  · intro v hv
    exact Json.read?_written true hv
  · intro event event' pattern hevent hrecoded hs
    exact Json.satisfies_of_recoded hrecoded hevent hs
  · intro event pattern hevent hcontainer hpattern
    exact Json.satisfies_encoded hevent hcontainer hpattern 1

/-- An article, with a count beyond what machine words hold. -/
def article : Json := .obj [("sku", .int (-7)), ("count", .int 100000000000000000000)]

def order : Json := .obj [("user", .str "z\u00fcrich\n"), ("cart", .arr [article])]

/-- The text of the text of the order, in which the article is a text before. -/
def orderText : Json :=
  Json.encoded 2 (.obj [("user", .str "z\u00fcrich\n"), ("cart", .arr [Json.encoded 1 article])])

theorem article_legible : article.Legible (987 + 1) := by
  unfold article
  rw [Json.legible_obj_iff]
  refine ⟨by decide, ?_⟩
  simp only [List.forall_mem_cons]
  exact ⟨Json.legible_int (by decide) _, Json.legible_int (by decide) _, nofun⟩

theorem order_legible : order.Legible Json.maxNesting := by
  show order.Legible (987 + 1 + 1 + 1)
  unfold order
  rw [Json.legible_obj_iff]
  refine ⟨by decide, ?_⟩
  simp only [List.forall_mem_cons, Json.legible_arr_iff]
  exact ⟨Json.legible_str _ _, ⟨article_legible, nofun⟩, nofun⟩

theorem order_recoded : order.Recoded orderText := by
  have harticle : order.Recodes
      (.obj [("user", .str "z\u00fcrich\n"), ("cart", .arr [Json.encoded 1 article])]) :=
    .inField [("user", .str "z\u00fcrich\n")] [] "cart" (.inElement [] [] (.text rfl 0))
  exact (Relation.ReflTransGen.single harticle).tail (.text rfl 1)

/-- What is asked of the order: an article with this in its key. -/
def asked : Json := .obj [("cart", .arr [.obj [("sku", .str "~7")]])]

/-- The order is read from its text, its text is asked as it is, and the text of the text of an
    order whose article is a text still has what is asked. -/
theorem orderText_matches :
    order.Legible Json.maxNesting ∧ Json.read? order.ascii = some order ∧
      (ofJson (.str order.ascii)).satisfies (ofJson asked) =
        (ofJson order).satisfies (ofJson asked) ∧
      order.Recoded orderText ∧ (ofJson orderText).satisfies (ofJson asked) = .ok true := by
  have horder : (ofJson order).satisfies (ofJson asked) = .ok true := by cbv
  obtain ⟨hread, hkeeps, hroot⟩ := double_encoding_keeps_matches
  exact ⟨order_legible, hread order order_legible, hroot order asked order_legible rfl rfl,
    order_recoded, hkeeps order orderText asked order_legible order_recoded horder⟩

end Value

end EventCheck
