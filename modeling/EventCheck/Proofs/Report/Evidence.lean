import EventCheck.Proofs.Json.Texts
import EventCheck.Proofs.Json.Values
import EventCheck.Proofs.Report.Difference
import EventCheck.Report.Artifacts

/-! # The evidence of a check

    A check shows as evidence what was expected and what was seen and, if it failed over a
    difference of the two, that difference.

    - `Json.evidence`: the text of a value as it should be shown. `Reporter.evidence`: the
      evidence of a check.
    - `Json.Bottomless`: a string that nests too deep to be decoded. It should be shown as it is,
      and is not: reading it fails, and then nothing is attached (`readable_of_bottomless`).
    - `Reporter.evidence_attached_iff`: this is the only case in which evidence is lost.
    - `Reporter.text_not_attached`: what is lost in it.
-/

namespace EventCheck

/-! ## Section 1: Values as evidence -/

namespace Json

/-- **The text of a value as evidence.** A string that is itself JSON is shown as what it says, and
    any other string as it is. -/
def evidence : Json → String
  | .str s =>
    match read? s with
    | some v => v.pretty
    | none => s
  | v => v.pretty

/-- Is it a string that nests too deep to be decoded? -/
def Bottomless (v : Json) : Prop :=
  ∃ s e, v = .str s ∧ read s = .error e ∧ e.isTooDeep = true

end Json

namespace Value

variable {foreign : Value → Except NotJson Json}

theorem replaceItems_ofItems {items : List Json}
    (h : ∀ v ∈ items, (ofJson v).replace foreign = .ok v) :
    replaceItems foreign (ofItems items) = .ok items := by
  induction items with
  | nil => rfl
  | cons v rest ih =>
    have hrest := ih fun v hin => h v (List.mem_cons_of_mem _ hin)
    rw [ofItems, replaceItems, h v List.mem_cons_self, hrest]
    rfl

theorem replaceFields_ofFields {fields : Fields}
    (h : ∀ field ∈ fields, (ofJson field.2).replace foreign = .ok field.2) :
    replaceFields foreign (ofFields fields) = .ok fields := by
  induction fields with
  | nil => rfl
  | cons field rest ih =>
    obtain ⟨k, v⟩ := field
    have hv : (ofJson v).replace foreign = .ok v := h (k, v) List.mem_cons_self
    have hrest := ih fun field hin => h field (List.mem_cons_of_mem _ hin)
    rw [ofFields, replaceFields, hv, hrest]
    rfl

/-- **In JSON data nothing is replaced**, whatever foreign things are replaced by. -/
theorem replace_ofJson (foreign : Value → Except NotJson Json) (v : Json) :
    (ofJson v).replace foreign = .ok v := by
  induction v using Json.tree_induction with
  | leaf leaf hleaf =>
    cases leaf with
    | arr items => cases hleaf
    | obj fields => cases hleaf
    | _ => rfl
  | arr items ih => rw [ofJson, replace, replaceItems_ofItems ih, Except.map]
  | obj fields ih => rw [ofJson, replace, replaceFields_ofFields ih, Except.map]

theorem renderShown_ofJson (v : Json) : (ofJson v).renderShown = v := by
  rw [renderShown, render, replace_ofJson]

end Value

/-! ## Section 2: What is attached -/

namespace Reporter

/-- A string is shown as what it says, if that can be found out. -/
theorem readable_str (s : String) :
    readable (.ofJson (.str s)) =
      match Json.read s with
      | .ok v => .ok v.pretty
      | .error e => if e.isTooDeep then .error e.message else .ok s := rfl

theorem readable_of_not_str {v : Json} (h : ∀ s, v ≠ .str s) :
    readable (.ofJson v) = .ok v.pretty := by
  have hrender : readable (.ofJson v) = .ok (Value.ofJson v).renderShown.pretty := by
    cases v with
    | str s => exact absurd rfl (h s)
    | _ => rfl
  rw [hrender, Value.renderShown_ofJson]

/-- **A value is shown as evidence**, unless it nests too deep. -/
theorem readable_of_not_bottomless {v : Json} (h : ¬ v.Bottomless) :
    readable (.ofJson v) = .ok v.evidence := by
  cases v with
  | str s =>
    rw [readable_str]
    cases hread : Json.read s with
    | ok v => simp only [Json.evidence, Json.read?, hread, Except.toOption]
    | error e =>
      have hshallow : ¬ e.isTooDeep = true := fun hdeep => h ⟨s, e, rfl, hread, hdeep⟩
      simp only [Json.evidence, Json.read?, hread, Except.toOption, if_neg hshallow]
  | _ => exact readable_of_not_str nofun

/-- A string that nests too deep cannot be read. -/
theorem readable_of_bottomless {v : Json} (h : v.Bottomless) :
    ∃ message, readable (.ofJson v) = .error message := by
  obtain ⟨s, e, rfl, hread, hdeep⟩ := h
  refine ⟨e.message, ?_⟩
  rw [readable_str, hread]
  dsimp only
  rw [if_pos hdeep]

/-- The value, if there is one; null is none. -/
def present : Option Json → Option Json
  | some .null => none
  | v => v

theorem readable?_of_ne_null {v : Json} (h : v ≠ .null) :
    readable? (some (.ofJson v)) = (readable (.ofJson v)).map some ∧ present (some v) = some v := by
  cases v with
  | null => exact absurd rfl h
  | _ => exact ⟨rfl, rfl⟩

theorem readable?_of_legible {v : Option Json} (h : ∀ x, v = some x → ¬ x.Bottomless) :
    readable? (v.map .ofJson) = .ok ((present v).map Json.evidence) := by
  cases v with
  | none => rfl
  | some x =>
    by_cases hnull : x = .null
    · rw [hnull]
      rfl
    · obtain ⟨hread, hpresent⟩ := readable?_of_ne_null hnull
      rw [Option.map_some, hread, hpresent, readable_of_not_bottomless (h x rfl)]
      rfl

theorem readable?_of_bottomless {v : Json} (h : v.Bottomless) :
    ∃ message, readable? ((some v).map .ofJson) = .error message := by
  obtain ⟨message, hmessage⟩ := readable_of_bottomless h
  have hnull : v ≠ .null := by
    obtain ⟨s, e, rfl, -⟩ := h
    exact nofun
  refine ⟨message, ?_⟩
  rw [Option.map_some, (readable?_of_ne_null hnull).1, hmessage]
  rfl

/-- **The evidence of a check**: what was expected if that is known, what was seen if anything was,
    and behind a failure the difference of the two if both are there and their texts differ. -/
def evidence (name : String) (occasion : Occasion) (expected actual : Option Json) :
    List Attachment :=
  ((present expected).map fun v => ⟨name ++ " expected.json", .json, v.evidence⟩).toList
    ++ ((present actual).map fun v => ⟨name ++ " actual.json", .json, v.evidence⟩).toList
    ++ match occasion, present expected, present actual with
      | .failure, some e, some a =>
        if e.evidence = a.evidence then []
        else [⟨name ++ " diff.txt", .text,
          LineDiff.unified "expected" "actual" e.evidence a.evidence⟩]
      | _, _, _ => []

/-- A difference is attached exactly if there is one. -/
theorem difference_eq (name expected actual : String) :
    difference name expected actual = if expected = actual then [] else
      [⟨name ++ " diff.txt", .text, LineDiff.unified "expected" "actual" expected actual⟩] := by
  unfold difference
  dsimp only
  by_cases heq : expected = actual
  · rw [if_pos heq, if_pos ((LineDiff.unified_isEmpty_iff _ _ _ _).mpr heq)]
  · rw [if_neg heq, if_neg (mt (LineDiff.unified_isEmpty_iff _ _ _ _).mp heq)]

theorem attachments_eq_evidence (name : String) (occasion : Occasion)
    (expected actual : Option Json) :
    attachments name occasion ((present expected).map Json.evidence)
      ((present actual).map Json.evidence) = evidence name occasion expected actual := by
  have hexpected : name ++ " " ++ "expected" ++ ".json" = name ++ " expected.json" := by
    rw [String.append_assoc, String.append_assoc]
    rfl
  have hactual : name ++ " " ++ "actual" ++ ".json" = name ++ " actual.json" := by
    rw [String.append_assoc, String.append_assoc]
    rfl
  unfold attachments evidence
  cases present expected <;> cases present actual <;> cases occasion <;>
    simp [difference_eq, hexpected, hactual]

/-! ## Section 3: What is lost -/

variable {settings : Reporting} {name : String} {occasion : Occasion} {expected actual : Option Value}

/-- What is attached when both values can be read. -/
theorem attach_of_ok {e a : Option String} (hwants : wants settings occasion = true)
    (he : readable? expected = .ok e) (ha : readable? actual = .ok a) :
    attach ⟨settings, true⟩ name occasion expected actual =
      ⟨attachments name occasion e a, []⟩ := by
  have htexts : (do
      let expected ← readable? expected
      let actual ← readable? actual
      pure (attachments name occasion expected actual)) = .ok (attachments name occasion e a) := by
    rw [he, ha]
    rfl
  unfold attach
  rw [if_pos hwants]
  dsimp only
  rw [htexts]
  cases attachments name occasion e a <;> rfl

/-- Nothing is, when one of them cannot. -/
theorem attach_of_error (hwants : wants settings occasion = true)
    (h : (∃ message, readable? expected = .error message) ∨
      ∃ e message, readable? expected = .ok e ∧ readable? actual = .error message) (works : Bool) :
    ∃ message, attach ⟨settings, works⟩ name occasion expected actual =
      ⟨[], [problem name message]⟩ := by
  unfold attach
  rw [if_pos hwants]
  rcases h with ⟨message, he⟩ | ⟨e, message, he, ha⟩
  · rw [he]
    exact ⟨message, rfl⟩
  · rw [he, ha]
    exact ⟨message, rfl⟩

/-- **Evidence is attached exactly if no string among it nests too deep.** With attaching asked for
    and working, a check attaches its whole evidence and leaves no record. Only when what was
    expected or what was seen is a string that nests too deep to be decoded, nothing is attached,
    not even what can be shown, and a record is left. -/
theorem evidence_attached_iff (settings : Reporting) (name : String) (occasion : Occasion)
    (expected actual : Option Json) (hwants : wants settings occasion = true) :
    let report := attach ⟨settings, true⟩ name occasion (expected.map .ofJson) (actual.map .ofJson)
    let lost := ∃ v, (expected = some v ∨ actual = some v) ∧ v.Bottomless
    (report = ⟨evidence name occasion expected actual, []⟩ ↔ ¬ lost) ∧
      (lost → ∃ message, report = ⟨[], [problem name message]⟩) := by
  intro report lost
  have hattached : ¬ lost → report = ⟨evidence name occasion expected actual, []⟩ := by
    intro hkept
    have hexpected := readable?_of_legible (v := expected) fun x hx hdeep =>
      hkept ⟨x, .inl hx, hdeep⟩
    have hactual := readable?_of_legible (v := actual) fun x hx hdeep =>
      hkept ⟨x, .inr hx, hdeep⟩
    show attach _ _ _ _ _ = _
    rw [attach_of_ok hwants hexpected hactual, attachments_eq_evidence]
  have hlost : lost → ∃ message, report = ⟨[], [problem name message]⟩ := by
    rintro ⟨v, hv, hdeep⟩
    refine attach_of_error hwants ?_ true
    by_cases hfirst : ∃ x, expected = some x ∧ x.Bottomless
    · obtain ⟨x, rfl, hx⟩ := hfirst
      exact .inl (readable?_of_bottomless hx)
    · -- what was expected can be read, so it is the other one that cannot
      have hlegible := readable?_of_legible (v := expected) fun x hx hd => hfirst ⟨x, hx, hd⟩
      have hactual : actual = some v := hv.resolve_left fun hx => hfirst ⟨v, hx, hdeep⟩
      obtain ⟨message, hmessage⟩ := readable?_of_bottomless hdeep
      exact .inr ⟨_, message, hlegible, hactual ▸ hmessage⟩
  refine ⟨⟨fun heq hl => ?_, hattached⟩, hlost⟩
  obtain ⟨message, hmessage⟩ := hlost hl
  rw [hmessage] at heq
  cases congrArg Report.records heq

/-- A price that is not the expected one: both prices are attached, and how they differ. -/
theorem wrongPrice_attached :
    wants .default .failure = true ∧
      attach ⟨.default, true⟩ "x" .failure ((some (.obj [("price", .int 1)])).map .ofJson)
          ((some (.obj [("price", .int 2)])).map .ofJson) =
        ⟨[⟨"x expected.json", .json, "\x7b\n  \"price\": 1\n\x7d"⟩,
          ⟨"x actual.json", .json, "\x7b\n  \"price\": 2\n\x7d"⟩,
          ⟨"x diff.txt", .text, "--- expected\n+++ actual\n@@ -1,3 +1,3 @@\n \x7b\n" ++
            "-  \"price\": 1\n+  \"price\": 2\n \x7d"⟩], []⟩ := by
  have hshown := (evidence_attached_iff .default "x" .failure (some (.obj [("price", .int 1)]))
    (some (.obj [("price", .int 2)])) rfl).1.mpr (by
      rintro ⟨v, hv, s, e, rfl, -⟩
      rcases hv with hv | hv <;> cases hv)
  refine ⟨rfl, hshown.trans ?_⟩
  rw [Report.mk.injEq]
  exact ⟨by decide +kernel, rfl⟩

/-! ## Section 4: Texts that nest too deep -/

/-- **A text that nests too deep should be attached as it is, and nothing is.** -/
theorem text_not_attached {s : String} {e : Json.ReadError} (hread : Json.read s = .error e)
    (hdeep : e.isTooDeep = true) (hwants : wants settings .failure = true) :
    evidence name .failure none (some (.str s)) = [⟨name ++ " actual.json", .json, s⟩] ∧
      (attach ⟨settings, true⟩ name .failure none (some (.ofJson (.str s)))).attached = [] := by
  have hevidence : (Json.str s).evidence = s := by
    simp only [Json.evidence, Json.read?, hread, Except.toOption]
  obtain ⟨message, hunread⟩ := readable?_of_bottomless ⟨s, e, rfl, hread, hdeep⟩
  obtain ⟨_, hreport⟩ : ∃ message, attach ⟨settings, true⟩ name .failure none
      (some (.ofJson (.str s))) = ⟨[], [problem name message]⟩ :=
    attach_of_error hwants (.inr ⟨none, message, rfl, hunread⟩) true
  constructor
  · show [Attachment.mk (name ++ " actual.json") .json (Json.str s).evidence] = _
    rw [hevidence]
  · rw [hreport]

/-- The text of 2000 brackets that open and as many that close. -/
def deepBody : String := String.ofList (Json.brackets 1999)

/-- As what was seen before a failure it is lost. -/
theorem deepBody_not_attached :
    wants .default .failure = true ∧
      evidence "x" .failure none (some (.str deepBody)) = [⟨"x" ++ " actual.json", .json, deepBody⟩] ∧
      (attach ⟨.default, true⟩ "x" .failure none (some (.ofJson (.str deepBody)))).attached = [] := by
  obtain ⟨e, hread, hdeep⟩ := Json.read_brackets_too_deep (n := 1999) (by decide)
  exact ⟨rfl, text_not_attached hread hdeep rfl⟩

end Reporter

end EventCheck
