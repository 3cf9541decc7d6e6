import EventCheck.Proofs.Report.Blocks

/-! # The difference of two texts

    Two texts have a difference exactly if they differ.

    - In a text that is compared with itself, no block is longer than the one that ends at the
      same line in both copies, and that one is met first. So the sweep stays on the diagonal
      (`sweep_diagonal`), and the block that it finds grows over the whole text
      (`longest_self`).
    - `group_ne_nil`: a stretch that is not common is in some hunk.
    - `Lines.splitAll_injective`: a text is its lines.
    - `unified_isEmpty_iff` puts it together.
-/

namespace EventCheck

namespace LineDiff

variable {text : Array String}

/-! ## Section 1: The diagonal -/

/-- May the line start a block in its own text? -/
def isQuiet (text : Array String) (line : Nat) : Bool :=
  text[line]?.any fun l => !isFrequent text l

/-- How many lines in front of this one may start a block, without interruption. -/
def streak (text : Array String) : Nat → Nat
  | 0 => 0
  | line + 1 => if isQuiet text line then streak text line + 1 else 0

/-- The window of a whole text on itself. -/
def whole (text : Array String) : Window := ⟨0, text.size, 0, text.size⟩

theorem isQuiet_of_inside {line p : Nat} (h : p ∈ inside (places text text) (whole text) line) :
    isQuiet text line = true ∧ isQuiet text p = true := by
  obtain ⟨l, hline, hfrequent, hp⟩ := mem_places.mp (List.mem_filter.mp h).1
  simp [isQuiet, hline, hp, hfrequent]

/-- A line that may start a block stands on the diagonal. -/
theorem mem_inside_self {line : Nat} (h : isQuiet text line = true) :
    line ∈ inside (places text text) (whole text) line := by
  obtain ⟨l, hline, hfrequent⟩ : ∃ l, text[line]? = some l ∧ isFrequent text l = false := by
    simpa [isQuiet, Option.any_eq_true] using h
  have hlt : line < text.size := (Array.getElem?_eq_some_iff.mp hline).1
  refine List.mem_filter.mpr ⟨mem_places.mpr ⟨l, hline, hfrequent, hline⟩, ?_⟩
  simp [whole, hlt]

/-- **What a sweep knows in front of a line** of the text that it compares with itself: where blocks
    end, in order. None is longer than the streaks in both copies, and on the diagonal it is as
    long as these. -/
structure Tracked (text : Array String) (line : Nat) (before : List (Nat × Nat)) : Prop where
  sorted : (before.map Prod.fst).Pairwise (· < ·)
  bounded : ∀ e ∈ before, e.2 ≤ streak text line ∧ e.2 ≤ streak text (e.1 + 1)
  diagonal : ∀ prev, line = prev + 1 → isQuiet text prev = true → (prev, streak text line) ∈ before

theorem runs_tracked {line : Nat} {before : List (Nat × Nat)} (h : Tracked text line before) :
    runs before (inside (places text text) (whole text) line) =
      (inside (places text text) (whole text) line).map fun place =>
        (place, runBefore before place + 1) :=
  runs_eq_map h.sorted (inside_increasing _ _ _ _)

/-- On the diagonal the streak goes on. -/
theorem Tracked.runBefore_diagonal {line : Nat} {before : List (Nat × Nat)}
    (h : Tracked text line before) : runBefore before line = streak text line := by
  cases line with
  | zero =>
    rcases runBefore_cases before 0 with hnone | ⟨e, -, hend, -⟩
    · exact hnone
    · cases hend
  | succ prev =>
    by_cases hprev : isQuiet text prev = true
    · exact runBefore_of_mem h.sorted (h.diagonal prev rfl hprev)
    · -- no block can end at a line that starts none
      have hzero : streak text (prev + 1) = 0 := by rw [streak, if_neg hprev]
      rcases runBefore_cases before (prev + 1) with hnone | ⟨e, he, -, hrun⟩
      · rw [hnone, hzero]
      · have hbound := (h.bounded e he).1
        omega

/-- **The next line is tracked as well.** -/
theorem Tracked.next {line : Nat} {before : List (Nat × Nat)} (h : Tracked text line before) :
    Tracked text (line + 1) (runs before (inside (places text text) (whole text) line)) := by
  rw [runs_tracked h]
  constructor
  case sorted =>
    rw [List.map_map]
    exact (List.map_id _).symm ▸ inside_increasing text text (whole text) line
  case bounded =>
    intro e he
    obtain ⟨place, hplace, rfl⟩ := List.mem_map.mp he
    obtain ⟨hline, hquiet⟩ := isQuiet_of_inside hplace
    rw [streak, streak, if_pos hline, if_pos hquiet]
    rcases runBefore_cases before place with hnone | ⟨e, hin, rfl, hrun⟩
    · rw [hnone]
      exact ⟨Nat.le_add_left _ _, Nat.le_add_left _ _⟩
    · obtain ⟨hold, hnew⟩ := h.bounded e hin
      rw [hrun]
      exact ⟨Nat.succ_le_succ hold, Nat.succ_le_succ hnew⟩
  case diagonal =>
    rintro prev ⟨⟩ hquiet
    refine List.mem_map.mpr ⟨line, mem_inside_self hquiet, ?_⟩
    rw [h.runBefore_diagonal, streak, if_pos hquiet]

/-- Blocks that are not longer than the best one do not replace it. -/
theorem better_of_le {line : Nat} {best : Block} {ends : List (Nat × Nat)}
    (h : ∀ e ∈ ends, e.2 ≤ best.length) : better line best ends = best := by
  unfold better
  induction ends with
  | nil => rfl
  | cons e rest ih =>
    obtain ⟨hfirst, hrest⟩ := List.forall_mem_cons.mp h
    rw [List.foldl_cons]
    dsimp only
    rw [if_neg (Nat.not_lt.mpr hfirst)]
    exact ih hrest

/-- Of blocks with a longest one, and none in front of it that is longer than the best one, that one
    alone may replace the best one. -/
theorem better_of_peak {line : Nat} {best : Block} {front rest : List (Nat × Nat)} {e : Nat × Nat}
    (hfront : ∀ x ∈ front, x.2 ≤ best.length) (hrest : ∀ x ∈ rest, x.2 ≤ e.2) :
    better line best (front ++ e :: rest) =
      if best.length < e.2 then ⟨line + 1 - e.2, e.1 + 1 - e.2, e.2⟩ else best := by
  have hsplit : better line best (front ++ e :: rest) =
      better line (better line (better line best front) [e]) rest := by
    simp only [better, List.foldl_append, List.foldl_cons, List.foldl_nil]
  have hpeak : better line best [e] =
      if best.length < e.2 then ⟨line + 1 - e.2, e.1 + 1 - e.2, e.2⟩ else best := rfl
  rw [hsplit, better_of_le hfront, hpeak]
  split
  · exact better_of_le hrest
  · rename_i hnot
    exact better_of_le fun x hx => Nat.le_trans (hrest x hx) (Nat.not_lt.mp hnot)

/-- **The best block so far**: it stands on the diagonal, and no streak so far is longer. -/
structure Leading (text : Array String) (line : Nat) (best : Block) : Prop where
  diagonal : best.old = best.new
  longest : ∀ i ≤ line, streak text i ≤ best.length

/-- It leads on if the next streak is not longer. -/
theorem Leading.on {line : Nat} {best : Block} (h : Leading text line best)
    (hstreak : streak text (line + 1) ≤ best.length) : Leading text (line + 1) best where
  diagonal := h.diagonal
  longest i hi := by
    rcases Nat.le_succ_iff.mp hi with hle | rfl
    · exact h.longest i hle
    · exact hstreak

/-- **The best block stays on the diagonal.** The blocks that end at a line and further in front in
    the other copy are not longer than one that was met before, and those that end further back
    are not longer than the one on the diagonal. -/
theorem Leading.next {line : Nat} {before : List (Nat × Nat)} {best : Block}
    (h : Leading text line best) (htracked : Tracked text line before) :
    Leading text (line + 1) (better line best
      (runs before (inside (places text text) (whole text) line))) := by
  have hnext := htracked.next
  by_cases hquiet : isQuiet text line = true
  · obtain ⟨front, rest, hsplit⟩ := List.append_of_mem (hnext.diagonal line rfl hquiet)
    rw [hsplit] at hnext ⊢
    have hsorted := hnext.sorted
    rw [List.map_append, List.map_cons, List.pairwise_append] at hsorted
    have hfront : ∀ e ∈ front, e.2 ≤ best.length := by
      intro e he
      have hbound := (hnext.bounded e (List.mem_append_left _ he)).2
      have hbefore := hsorted.2.2 e.1 (List.mem_map_of_mem he) line List.mem_cons_self
      exact Nat.le_trans hbound (h.longest _ hbefore)
    have hrest : ∀ e ∈ rest, e.2 ≤ streak text (line + 1) := fun e he =>
      (hnext.bounded e (List.mem_append_right _ (List.mem_cons_of_mem _ he))).1
    rw [better_of_peak hfront hrest]
    split
    · rename_i hlonger
      have hleads : Leading text line ⟨line + 1 - streak text (line + 1),
          line + 1 - streak text (line + 1), streak text (line + 1)⟩ :=
        ⟨rfl, fun i hi => Nat.le_trans (h.longest i hi) (Nat.le_of_lt hlonger)⟩
      exact hleads.on (Nat.le_refl _)
    · rename_i hnot
      exact h.on (Nat.not_lt.mp hnot)
  · -- a line that starts no block changes nothing
    have hzero : streak text (line + 1) = 0 := by rw [streak, if_neg hquiet]
    have hshort : ∀ e ∈ runs before (inside (places text text) (whole text) line),
        e.2 ≤ best.length := fun e he =>
      Nat.le_trans (hzero ▸ (hnext.bounded e he).1) (Nat.zero_le _)
    rw [better_of_le hshort]
    exact h.on (hzero ▸ Nat.zero_le _)

/-- **A sweep of a text over itself ends on the diagonal.** By induction on the lines that are
    left. -/
theorem sweep_diagonal (count : Nat) {line : Nat} {before : List (Nat × Nat)} {best : Block}
    (htracked : Tracked text line before) (h : Leading text line best) :
    (sweep (places text text) (whole text) line before best count).old =
      (sweep (places text text) (whole text) line before best count).new := by
  induction count generalizing line before best with
  | zero => exact h.diagonal
  | succ count ih => exact ih htracked.next (h.next htracked)

/-! ## Section 2: A text and itself -/

/-- On the diagonal a block grows back to the beginning. -/
theorem growBack_self {i length count : Nat} (h : i ≤ count) :
    growBack text text (whole text) ⟨i, i, length⟩ count = ⟨0, 0, i + length⟩ := by
  induction count generalizing i length with
  | zero =>
    obtain rfl : i = 0 := Nat.le_zero.mp h
    rw [growBack, Nat.zero_add]
  | succ count ih =>
    cases i with
    | zero => simp [growBack, whole]
    | succ i =>
      have hgrows : growBack text text (whole text) ⟨i + 1, i + 1, length⟩ (count + 1) =
          growBack text text (whole text) ⟨i, i, length + 1⟩ count := by
        simp [growBack, whole]
      rw [hgrows, ih (Nat.le_of_succ_le_succ h), Nat.add_right_comm]
      rfl

/-- A block at the beginning grows on to the end. -/
theorem growOn_self {length count : Nat} (hlength : length ≤ text.size)
    (h : text.size ≤ length + count) :
    growOn text text (whole text) ⟨0, 0, length⟩ count = ⟨0, 0, text.size⟩ := by
  induction count generalizing length with
  | zero =>
    obtain rfl : length = text.size := Nat.le_antisymm hlength h
    rfl
  | succ count ih =>
    rcases Nat.lt_or_eq_of_le hlength with hlt | rfl
    · have hgrows : growOn text text (whole text) ⟨0, 0, length⟩ (count + 1) =
          growOn text text (whole text) ⟨0, 0, length + 1⟩ count := by
        simp [growOn, whole, hlt]
      rw [hgrows]
      exact ih hlt (by omega)
    · simp [growOn, whole]

/-- **The longest block of a text and itself is the whole text.** -/
theorem longest_self (text : Array String) :
    longest text text (places text text) (whole text) = ⟨0, 0, text.size⟩ := by
  have htracked : Tracked text 0 [] :=
    ⟨.nil, fun e he => absurd he List.not_mem_nil, nofun⟩
  have hleading : Leading text 0 ⟨0, 0, 0⟩ := by
    refine ⟨rfl, fun i hi => ?_⟩
    rw [Nat.le_zero.mp hi]
    exact Nat.le_refl 0
  have hdiagonal := sweep_diagonal text.size htracked hleading
  have hcommon : Common text text (whole text)
      (sweep (places text text) (whole text) 0 [] ⟨0, 0, 0⟩ text.size) :=
    common_sweep .nil (fun e he => absurd he List.not_mem_nil)
      (common_nil (w := whole text) (Nat.zero_le _) (Nat.zero_le _)) (Nat.le_refl _)
      (Nat.le_of_eq (Nat.zero_add _))
  show growOn text text (whole text) (growBack text text (whole text)
    (sweep (places text text) (whole text) 0 [] ⟨0, 0, 0⟩ text.size) text.size) text.size = _
  generalize sweep (places text text) (whole text) 0 [] ⟨0, 0, 0⟩ text.size = b
    at hdiagonal hcommon
  obtain ⟨i, j, length⟩ := b
  cases hdiagonal
  have hto : i + length ≤ text.size := hcommon.oldTo
  rw [growBack_self (by omega), growOn_self hto (by omega)]

/-- A window without lines of the old text has no blocks. -/
theorem blocksWithin_empty {old new : Array String} {w : Window} (h : w.oldTo = w.oldFrom)
    (rounds : Nat) : blocksWithin old new (places old new) rounds w = [] := by
  cases rounds with
  | zero => rfl
  | succ rounds =>
    have hlongest : longest old new (places old new) w = ⟨w.oldFrom, w.newFrom, 0⟩ := by
      simp [longest, h, sweep, growBack, growOn]
    rw [blocksWithin]
    simp [hlongest]

/-- **A text and itself have one stretch**, which is common, or none. -/
theorem stretches_self (text : Array String) :
    stretches text text = if text.size = 0 then [] else [⟨true, 0, text.size, 0, text.size⟩] := by
  have hblocks : blocks text text = if text.size = 0 then [] else [⟨0, 0, text.size⟩] := by
    have hwithin : blocks text text = joined (blocksWithin text text (places text text)
      (text.size + 1) (whole text)) := rfl
    rw [hwithin, blocksWithin, longest_self]
    dsimp only
    split
    · rfl
    · rw [blocksWithin_empty rfl, blocksWithin_empty (by simp [whole])]
      rfl
  unfold stretches
  rw [hblocks]
  split
  · rename_i hempty
    simp [stretchesFrom, gap, hempty]
  · simp [stretchesFrom, gap]

/-- So they have no hunks. -/
theorem hunks_self (text : Array String) : hunks text text = [] := by
  unfold hunks
  rw [stretches_self]
  split
  · rfl
  · -- what is left of the stretch is not long enough to be cut
    have hshort : ¬ 6 < min text.size (text.size - 3 + 3) - (text.size - 3) := by omega
    simp [trimFront, trimBack, group, Stretch.ending, Stretch.beginning, margin, hshort]

/-! ## Section 3: Hunks -/

@[simp] theorem trimFront_common (ss : List Stretch) :
    (trimFront ss).map Stretch.common = ss.map Stretch.common := by
  cases ss with
  | nil => rfl
  | cons s rest =>
    rw [trimFront]
    split <;> rfl

@[simp] theorem trimBack_common (ss : List Stretch) :
    (trimBack ss).map Stretch.common = ss.map Stretch.common := by
  induction ss with
  | nil => rfl
  | cons s rest ih =>
    cases rest with
    | nil =>
      rw [trimBack]
      split <;> rfl
    | cons next more =>
      have hkept : trimBack (s :: next :: more) = s :: trimBack (next :: more) := rfl
      rw [hkept, List.map_cons, List.map_cons, ih]

/-- **A stretch that is not common is in some hunk.** By induction on the stretches that are left. -/
theorem group_ne_nil {current rest : List Stretch}
    (h : ∃ s ∈ current ++ rest, s.common = false) : group current rest ≠ [] := by
  induction rest generalizing current with
  | nil =>
    obtain ⟨s, hs, hchanged⟩ := h
    rw [List.append_nil] at hs
    unfold group
    split
    · cases hs
    · rw [List.mem_singleton.mp hs] at hchanged
      simp [hchanged]
    · simp
  | cons s rest ih =>
    rw [group]
    split
    · exact List.cons_ne_nil _ _
    · exact ih (by simpa using h)

theorem hunks_ne_nil {old new : Array String} (h : old ≠ new) : hunks old new ≠ [] := by
  obtain ⟨s, hs, hchanged⟩ := exists_changed h
  have hin : false ∈ (trimBack (trimFront (stretches old new))).map Stretch.common := by
    rw [trimBack_common, trimFront_common]
    exact List.mem_map.mpr ⟨s, hs, hchanged⟩
  obtain ⟨s', hs', hchanged'⟩ := List.mem_map.mp hin
  exact group_ne_nil ⟨s', hs', hchanged'⟩

end LineDiff

/-! ## Section 4: Texts and their lines -/

namespace Lines

theorem flatten_extend (c : Char) (lines : List (List Char)) :
    (extend c lines).flatten = c :: lines.flatten := by
  cases lines <;> rfl

/-- The lines of a text, one after the other, are the text. -/
theorem flatten_splitChars (ends : Char → Bool) (returns : Bool) (cs : List Char) :
    (splitChars ends returns cs).flatten = cs := by
  fun_induction splitChars ends returns cs <;> simp_all [flatten_extend]

/-- **A text is its lines.** -/
theorem splitAll_injective {s t : String} (h : splitAll s = splitAll t) : s = t := by
  have hchars : splitChars isEnd true s.toList = splitChars isEnd true t.toList := by
    have hmap := congrArg (List.map String.toList) h
    simpa [splitAll, Function.comp_def] using hmap
  have hflat := congrArg List.flatten hchars
  rw [flatten_splitChars, flatten_splitChars] at hflat
  exact String.toList_inj.mp hflat

end Lines

namespace LineDiff

/-- **Two texts have a difference exactly if they differ.** -/
theorem unified_isEmpty_iff (oldName newName old new : String) :
    (unified oldName newName old new).isEmpty = true ↔ old = new := by
  unfold unified
  dsimp only
  constructor
  · intro hempty
    refine Lines.splitAll_injective (Classical.byContradiction fun hne => ?_)
    have hhunks : hunks (Lines.splitAll old).toArray (Lines.splitAll new).toArray ≠ [] :=
      hunks_ne_nil fun heq => hne (by simpa using heq)
    split at hempty
    · rename_i hnone
      exact hhunks hnone
    · simp [String.isEmpty_iff] at hempty
  · rintro rfl
    rw [hunks_self]
    rfl

end LineDiff

end EventCheck
