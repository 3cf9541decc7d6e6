import EventCheck.Proofs.Matching.Search

/-! # Every value matches itself

    A value without repeated keys satisfies itself as a pattern, whatever its strings
    are read as (`satisfies_self`): `"*"` accepts anything, `""` only what `""` is,
    and `"~part"` has the part behind its tilde.

    So a payload contains each object inside it (`contains_inside`).
-/

namespace EventCheck

namespace LeafRule

/-- A text is accepted by the rule that it stands for. -/
theorem accepts_ofText (s : String) : (ofText s).accepts s = true := by
  unfold ofText
  by_cases hany : s = "*"
  · rw [if_pos hany]
    rfl
  rw [if_neg hany]
  split
  · next hempty =>
    have hs : s = "" := String.toList_inj.mp hempty
    simp [accepts, hs]
  · next part htilde =>
    have hinside : part <:+: s.toList := by
      rw [htilde]
      exact (List.suffix_cons '~' part).isInfix
    simpa [accepts, isPart, isPartOf_iff] using hinside
  · simp [accepts]

end LeafRule

namespace Json

theorem leafMatches_self (v : Json) : v.leafMatches v = true := by
  cases v with
  | str s => exact LeafRule.accepts_ofText s
  | _ => simp [leafMatches, LeafRule.of, LeafRule.accepts]

/-- **Every value without repeated keys satisfies itself.** -/
theorem satisfies_self {v : Json} (h : v.Sound) : v.satisfies v = true := by
  induction v using tree_induction with
  | leaf leaf hleaf =>
    rw [satisfies_leaf hleaf, hleaf, leafMatches_self]
    rfl
  | arr items ih =>
    rw [satisfies_arr_iff]
    refine ⟨items, .itself nofun, fun w hin => ⟨w, hin, ih w hin ?_⟩⟩
    exact soundItems_iff.mp h w hin
  | obj fields ih =>
    obtain ⟨hkeys, hfields⟩ := h
    rw [satisfies_obj_iff]
    refine ⟨fields, .itself nofun, fun key w hin => ⟨w, Keyed.get?_of_mem hkeys hin, ?_⟩⟩
    exact ih (key, w) hin (soundFields_iff.mp hfields (key, w) hin)

theorem contains_self {fields : Fields} (h : (Json.obj fields).Sound) :
    (Json.obj fields).contains fields = true := by
  refine contains_iff.mpr ⟨.obj fields, .itself nofun, fun key w hin => ?_⟩
  have hself := satisfies_self (soundFields_iff.mp h.2 (key, w) hin)
  exact ⟨[], fields, w, .here _, hin, hself⟩

/-- **A payload contains each object inside it.** -/
theorem contains_inside {payload : Json} {path : List Step} {fields : Fields}
    (hp : ∀ s, payload ≠ .str s) (h : payload.Leads path (.obj fields))
    (hs : (Json.obj fields).Sound) : payload.contains fields = true :=
  contains_of_leads h hp nofun (contains_self hs)

end Json

end EventCheck
