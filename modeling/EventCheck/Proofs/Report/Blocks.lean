import EventCheck.Report.LineDiff

/-! # The common blocks of two texts

    A difference is built from blocks of lines that two texts have in common. Whatever lines are
    too frequent to start a block, and however long the blocks are, they are common.

    - `LineDiff.runs_eq_map`: how long the blocks are that end at the lines of a sweep.
    - `LineDiff.Common`: a block of equal lines within a window. Sweeping and growing keep this
      (`common_longest`).
    - `LineDiff.Chain`: common blocks in the order of both texts. The blocks of two texts are a
      chain (`chain_blocks`).
    - `getElem?_eq_of_no_gaps`: texts with nothing between their blocks are equal.
-/

namespace EventCheck.LineDiff

variable {old new : Array String}

/-! ## Section 1: The places of a line -/

theorem mem_placesFrom {line : String} {place p : Nat} {lines : List String} :
    p ∈ placesFrom line place lines ↔ ∃ i, p = place + i ∧ lines[i]? = some line := by
  induction lines generalizing place with
  | nil => simp [placesFrom]
  | cons l rest ih =>
    -- it stands at the front, or further back
    have hsplit : (∃ i, p = place + i ∧ (l :: rest)[i]? = some line) ↔
        (p = place ∧ l = line) ∨ ∃ i, p = place + 1 + i ∧ rest[i]? = some line := by
      constructor
      · rintro ⟨i, rfl, hi⟩
        cases i with
        | zero => exact .inl ⟨rfl, Option.some.inj hi⟩
        | succ i => exact .inr ⟨i, by omega, hi⟩
      · rintro (⟨rfl, rfl⟩ | ⟨i, rfl, hi⟩)
        · exact ⟨0, rfl, rfl⟩
        · exact ⟨i + 1, by omega, hi⟩
    rw [hsplit, placesFrom]
    split
    · rename_i heq
      rw [List.mem_cons, ih, eq_of_beq heq]
      simp
    · rename_i heq
      rw [ih, or_iff_right]
      rintro ⟨-, rfl⟩
      exact heq (beq_self_eq_true l)

/-- The places are given in order. -/
theorem placesFrom_increasing (line : String) (place : Nat) (lines : List String) :
    (placesFrom line place lines).Pairwise (· < ·) := by
  induction lines generalizing place with
  | nil => exact .nil
  | cons l rest ih =>
    rw [placesFrom]
    split
    · refine .cons (fun p hp => ?_) (ih _)
      obtain ⟨i, rfl, -⟩ := mem_placesFrom.mp hp
      omega
    · exact ih _

theorem mem_places {line p : Nat} :
    p ∈ (places old new).getD line [] ↔
      ∃ l, old[line]? = some l ∧ isFrequent new l = false ∧ new[p]? = some l := by
  unfold places
  rw [Array.getD_eq_getD_getElem?, Array.getElem?_map]
  cases old[line]? with
  | none => simp
  | some l =>
    cases hfrequent : isFrequent new l with
    | true => simp [hfrequent]
    | false => simp [hfrequent, mem_placesFrom]

theorem places_increasing (old new : Array String) (line : Nat) :
    ((places old new).getD line []).Pairwise (· < ·) := by
  unfold places
  rw [Array.getD_eq_getD_getElem?, Array.getElem?_map]
  cases old[line]? with
  | none => exact .nil
  | some l =>
    dsimp only [Option.map_some, Option.getD_some]
    split
    · exact .nil
    · exact placesFrom_increasing l 0 _

/-- The places of a line of the old text within a window. -/
def inside (places : Array (List Nat)) (w : Window) (line : Nat) : List Nat :=
  (places.getD line []).filter fun p => w.newFrom ≤ p && p < w.newTo

theorem inside_increasing (old new : Array String) (w : Window) (line : Nat) :
    (inside (places old new) w line).Pairwise (· < ·) :=
  (places_increasing old new line).filter _

/-- Lines at such places are equal. -/
theorem eq_of_inside {w : Window} {line p : Nat} (h : p ∈ inside (places old new) w line) :
    old[line]? = new[p]? ∧ w.newFrom ≤ p ∧ p < w.newTo := by
  obtain ⟨hin, hwindow⟩ := List.mem_filter.mp h
  obtain ⟨l, hold, -, hnew⟩ := mem_places.mp hin
  simp only [Bool.and_eq_true, decide_eq_true_eq] at hwindow
  exact ⟨hold.trans hnew.symm, hwindow⟩

/-! ## Section 2: The lengths of runs -/

/-- How long the block is that ends in front of this place. -/
def runBefore (before : List (Nat × Nat)) (place : Nat) : Nat :=
  ((before.find? fun e => e.1 + 1 = place).map Prod.snd).getD 0

/-- It is one of those that are known, or none. -/
theorem runBefore_cases (before : List (Nat × Nat)) (place : Nat) :
    runBefore before place = 0 ∨ ∃ e ∈ before, e.1 + 1 = place ∧ runBefore before place = e.2 := by
  unfold runBefore
  cases hfind : before.find? (fun e => e.1 + 1 = place) with
  | none => exact .inl rfl
  | some e =>
    exact .inr ⟨e, List.mem_of_find?_eq_some hfind, by simpa using List.find?_some hfind, rfl⟩

/-- What ends further in front makes no difference. -/
theorem runBefore_dropWhile {before : List (Nat × Nat)} {place place' : Nat} (h : place ≤ place') :
    runBefore (before.dropWhile fun e => e.1 + 1 < place) place' = runBefore before place' := by
  induction before with
  | nil => rfl
  | cons e rest ih =>
    by_cases hdrop : e.1 + 1 < place
    · have hother : ¬ e.1 + 1 = place' := by omega
      rw [List.dropWhile_cons_of_pos (by simpa using hdrop), ih]
      unfold runBefore
      rw [List.find?_cons_of_neg (by simpa using hother)]
    · rw [List.dropWhile_cons_of_neg (by simpa using hdrop)]

/-- Of blocks in order, none of which ends further in front, only the first can end there. -/
theorem runBefore_cons {e : Nat × Nat} {rest : List (Nat × Nat)} {place : Nat}
    (hsorted : ((e :: rest).map Prod.fst).Pairwise (· < ·)) (h : place ≤ e.1 + 1) :
    runBefore (e :: rest) place = if e.1 + 1 = place then e.2 else 0 := by
  unfold runBefore
  by_cases heq : e.1 + 1 = place
  · rw [List.find?_cons_of_pos (by simpa using heq), if_pos heq]
    rfl
  · have hnone : rest.find? (fun e => e.1 + 1 = place) = none := by
      rw [List.find?_eq_none]
      intro x hx
      have hlater := (List.pairwise_cons.mp hsorted).1 x.1 (List.mem_map_of_mem hx)
      simp only [decide_eq_true_eq]
      omega
    rw [List.find?_cons_of_neg (by simpa using heq), hnone, if_neg heq]
    rfl

/-- The block that ends there is found. -/
theorem runBefore_of_mem {before : List (Nat × Nat)} {e : Nat × Nat}
    (hsorted : (before.map Prod.fst).Pairwise (· < ·)) (he : e ∈ before) :
    runBefore before (e.1 + 1) = e.2 := by
  induction before with
  | nil => cases he
  | cons first rest ih =>
    have hrest := (List.pairwise_cons.mp hsorted).2
    rcases List.mem_cons.mp he with rfl | hin
    · rw [runBefore_cons hsorted (Nat.le_refl _), if_pos rfl]
    · have hlater := (List.pairwise_cons.mp hsorted).1 e.1 (List.mem_map_of_mem hin)
      have hother : ¬ first.1 + 1 = e.1 + 1 := by omega
      rw [← ih hrest hin]
      unfold runBefore
      rw [List.find?_cons_of_neg (by simpa using hother)]

/-- **The lengths of runs**: each place goes on with the block that ends in front of it. By induction
    on the places. -/
theorem runs_eq_map {before : List (Nat × Nat)} {places : List Nat}
    (hbefore : (before.map Prod.fst).Pairwise (· < ·)) (hplaces : places.Pairwise (· < ·)) :
    runs before places = places.map fun place => (place, runBefore before place + 1) := by
  induction places generalizing before with
  | nil => rfl
  | cons place rest ih =>
    obtain ⟨hfirst, hrest⟩ := List.pairwise_cons.mp hplaces
    have hkept : ((before.dropWhile fun e => e.1 + 1 < place).map Prod.fst).Pairwise (· < ·) :=
      hbefore.sublist ((List.dropWhile_sublist _).map _)
    rw [runs, List.map_cons, List.cons.injEq]
    refine ⟨Prod.ext rfl ?_, (ih hkept hrest).trans (List.map_congr_left fun place' hin => ?_)⟩
    · -- the run that ends in front of the place is the first of those that are left
      rw [← runBefore_dropWhile (Nat.le_refl place)]
      generalize hdropped : before.dropWhile (fun e => e.1 + 1 < place) = dropped at hkept ⊢
      cases dropped with
      | nil => rfl
      | cons e more =>
        have hnot := List.head?_dropWhile_not (fun e : Nat × Nat => decide (e.1 + 1 < place)) before
        rw [hdropped] at hnot
        have hle : place ≤ e.1 + 1 := by simpa using hnot
        rw [runBefore_cons hkept hle]
        dsimp only
        split <;> rfl
    · rw [runBefore_dropWhile (Nat.le_of_lt (hfirst place' hin))]

/-! ## Section 3: Common blocks -/

/-- **A block of equal lines within a window.** -/
structure Common (old new : Array String) (w : Window) (b : Block) : Prop where
  oldFrom : w.oldFrom ≤ b.old
  oldTo : b.old + b.length ≤ w.oldTo
  newFrom : w.newFrom ≤ b.new
  newTo : b.new + b.length ≤ w.newTo
  equal : ∀ k < b.length, old[b.old + k]? = new[b.new + k]?

/-- Such a block, of this length, ends in front of the line and with the place. -/
def EndsAt (old new : Array String) (w : Window) (line : Nat) (e : Nat × Nat) : Prop :=
  ∃ b, Common old new w b ∧ b.length = e.2 ∧ b.old + b.length = line ∧ b.new + b.length = e.1 + 1

variable {w : Window}

theorem common_nil (hold : w.oldFrom ≤ w.oldTo) (hnew : w.newFrom ≤ w.newTo) :
    Common old new w ⟨w.oldFrom, w.newFrom, 0⟩ :=
  ⟨Nat.le_refl _, hold, Nat.le_refl _, hnew, fun k hk => absurd hk (Nat.not_lt_zero k)⟩

/-- A block with an equal line behind it is a block. -/
theorem Common.grow {b : Block} (h : Common old new w b) (hold : b.old + b.length < w.oldTo)
    (hnew : b.new + b.length < w.newTo)
    (heq : old[b.old + b.length]? = new[b.new + b.length]?) :
    Common old new w ⟨b.old, b.new, b.length + 1⟩ where
  oldFrom := h.oldFrom
  oldTo := hold
  newFrom := h.newFrom
  newTo := hnew
  equal k hk := by
    rcases Nat.lt_succ_iff_lt_or_eq.mp hk with hlt | rfl
    · exact h.equal k hlt
    · exact heq

/-- So is one with an equal line in front of it. -/
theorem Common.growFront {i j length : Nat} (h : Common old new w ⟨i + 1, j + 1, length⟩)
    (hold : w.oldFrom ≤ i) (hnew : w.newFrom ≤ j) (heq : old[i]? = new[j]?) :
    Common old new w ⟨i, j, length + 1⟩ where
  oldFrom := hold
  oldTo := by have := h.oldTo; dsimp only at this ⊢; omega
  newFrom := hnew
  newTo := by have := h.newTo; dsimp only at this ⊢; omega
  equal k hk := by
    cases k with
    | zero => exact heq
    | succ k =>
      have hprev := h.equal k (Nat.lt_of_succ_lt_succ hk)
      rwa [Nat.add_right_comm, Nat.add_assoc i k 1, Nat.add_right_comm, Nat.add_assoc j k 1]
        at hprev

/-- **A run ends a common block.** -/
theorem endsAt_run {line place : Nat} {before : List (Nat × Nat)}
    (hbefore : ∀ e ∈ before, EndsAt old new w line e) (hfrom : w.oldFrom ≤ line)
    (hto : line < w.oldTo) (hplace : place ∈ inside (places old new) w line) :
    EndsAt old new w (line + 1) (place, runBefore before place + 1) := by
  obtain ⟨heq, hnewFrom, hnewTo⟩ := eq_of_inside hplace
  rcases runBefore_cases before place with hnone | ⟨e, he, hend, hrun⟩
  · -- the line stands alone
    have hsingle : Common old new w ⟨line, place, 0⟩ :=
      ⟨hfrom, Nat.le_of_lt hto, hnewFrom, Nat.le_of_lt hnewTo,
        fun k hk => absurd hk (Nat.not_lt_zero k)⟩
    exact ⟨_, hsingle.grow hto hnewTo heq, by rw [hnone], rfl, rfl⟩
  · obtain ⟨b, hb, hlength, hold, hnew⟩ := hbefore e he
    have hplaceEq : b.new + b.length = place := hnew.trans hend
    refine ⟨_, hb.grow (by omega) (by omega) (by rw [hold, hplaceEq, heq]), ?_, ?_, ?_⟩
    · rw [hrun, ← hlength]
    · dsimp only
      omega
    · dsimp only
      omega

theorem common_better {line : Nat} {best : Block} {ends : List (Nat × Nat)}
    (hbest : Common old new w best) (hends : ∀ e ∈ ends, EndsAt old new w (line + 1) e) :
    Common old new w (better line best ends) := by
  unfold better
  induction ends generalizing best with
  | nil => exact hbest
  | cons e rest ih =>
    obtain ⟨hfirst, hrest⟩ := List.forall_mem_cons.mp hends
    refine ih ?_ hrest
    dsimp only
    split
    · obtain ⟨b, hb, hlength, hold, hnew⟩ := hfirst
      have heq : b = ⟨line + 1 - e.2, e.1 + 1 - e.2, e.2⟩ := by
        rw [← hlength, ← hold, ← hnew, Nat.add_sub_cancel, Nat.add_sub_cancel]
      exact heq ▸ hb
    · exact hbest

/-- **A sweep finds a common block.** By induction on the lines that are left. -/
theorem common_sweep {line : Nat} {before : List (Nat × Nat)} {best : Block} {count : Nat}
    (hsorted : (before.map Prod.fst).Pairwise (· < ·))
    (hbefore : ∀ e ∈ before, EndsAt old new w line e) (hbest : Common old new w best)
    (hfrom : w.oldFrom ≤ line) (hto : line + count ≤ w.oldTo) :
    Common old new w (sweep (places old new) w line before best count) := by
  induction count generalizing line before best with
  | zero => exact hbest
  | succ count ih =>
    have hinside := inside_increasing old new w line
    have hruns : runs before (inside (places old new) w line) =
        (inside (places old new) w line).map fun place => (place, runBefore before place + 1) :=
      runs_eq_map hsorted hinside
    have hends : ∀ e ∈ runs before (inside (places old new) w line),
        EndsAt old new w (line + 1) e := by
      rw [hruns]
      intro e he
      obtain ⟨place, hplace, rfl⟩ := List.mem_map.mp he
      exact endsAt_run hbefore hfrom (by omega) hplace
    rw [sweep]
    refine ih ?_ hends (common_better hbest hends) (Nat.le_succ_of_le hfrom) (by omega)
    show ((runs before (inside (places old new) w line)).map Prod.fst).Pairwise (· < ·)
    rw [hruns, List.map_map]
    exact (List.map_id _).symm ▸ hinside

theorem common_growBack {b : Block} (h : Common old new w b) (hold : w.oldTo ≤ old.size)
    (hnew : w.newTo ≤ new.size) (count : Nat) :
    Common old new w (growBack old new w b count) := by
  induction count generalizing b with
  | zero => exact h
  | succ count ih =>
    rw [growBack]
    split
    · rename_i hgrows
      simp only [Bool.and_eq_true, decide_eq_true_eq, beq_iff_eq] at hgrows
      obtain ⟨⟨holdFrom, hnewFrom⟩, heq⟩ := hgrows
      obtain ⟨i, j, length⟩ := b
      have holdTo := h.oldTo
      have hnewTo := h.newTo
      dsimp only at holdFrom hnewFrom heq holdTo hnewTo ⊢
      obtain ⟨i, rfl⟩ : ∃ i', i = i' + 1 := ⟨i - 1, by omega⟩
      obtain ⟨j, rfl⟩ : ∃ j', j = j' + 1 := ⟨j - 1, by omega⟩
      rw [Nat.add_sub_cancel, Nat.add_sub_cancel] at heq ⊢
      refine ih (h.growFront (by omega) (by omega) ?_)
      have hi : i < old.size := by omega
      have hj : j < new.size := by omega
      simpa [Array.getD, hi, hj] using heq
    · exact h

theorem common_growOn {b : Block} (h : Common old new w b) (hold : w.oldTo ≤ old.size)
    (hnew : w.newTo ≤ new.size) (count : Nat) :
    Common old new w (growOn old new w b count) := by
  induction count generalizing b with
  | zero => exact h
  | succ count ih =>
    rw [growOn]
    split
    · rename_i hgrows
      simp only [Bool.and_eq_true, decide_eq_true_eq, beq_iff_eq] at hgrows
      obtain ⟨⟨holdTo, hnewTo⟩, heq⟩ := hgrows
      refine ih (h.grow holdTo hnewTo ?_)
      have hi : b.old + b.length < old.size := by omega
      have hj : b.new + b.length < new.size := by omega
      simpa [Array.getD, hi, hj] using heq
    · exact h

/-- **The longest block is common.** -/
theorem common_longest (hold : w.oldFrom ≤ w.oldTo) (hnew : w.newFrom ≤ w.newTo)
    (holdTo : w.oldTo ≤ old.size) (hnewTo : w.newTo ≤ new.size) :
    Common old new w (longest old new (places old new) w) := by
  have hfound : Common old new w (sweep (places old new) w w.oldFrom []
      ⟨w.oldFrom, w.newFrom, 0⟩ (w.oldTo - w.oldFrom)) :=
    common_sweep .nil (fun e he => absurd he List.not_mem_nil) (common_nil hold hnew)
      (Nat.le_refl _) (by omega)
  exact common_growOn (common_growBack hfound holdTo hnewTo _) holdTo hnewTo _

/-! ## Section 4: Chains -/

/-- **Common blocks in the order of both texts**, between two pairs of places. -/
def Chain (old new : Array String) : Nat → Nat → List Block → Nat → Nat → Prop
  | i, j, [], i', j' => i ≤ i' ∧ j ≤ j'
  | i, j, b :: rest, i', j' => Common old new ⟨i, i', j, j'⟩ b ∧
      Chain old new (b.old + b.length) (b.new + b.length) rest i' j'

/-- A block joins two chains. -/
theorem Chain.append {xs ys : List Block} {b : Block} {i j i' j' : Nat}
    (hfront : Chain old new i j xs b.old b.new) (hb : Common old new ⟨i, i', j, j'⟩ b)
    (hback : Chain old new (b.old + b.length) (b.new + b.length) ys i' j') :
    Chain old new i j (xs ++ b :: ys) i' j' := by
  induction xs generalizing i j with
  | nil => exact ⟨hb, hback⟩
  | cons x rest ih =>
    obtain ⟨hx, hrest⟩ := hfront
    have hoverall : Common old new ⟨i, i', j, j'⟩ x :=
      ⟨hx.oldFrom, Nat.le_trans hx.oldTo (Nat.le_of_add_right_le hb.oldTo), hx.newFrom,
        Nat.le_trans hx.newTo (Nat.le_of_add_right_le hb.newTo), hx.equal⟩
    exact ⟨hoverall, ih hrest ⟨hx.oldTo, hb.oldTo, hx.newTo, hb.newTo, hb.equal⟩⟩

theorem chain_blocksWithin {rounds : Nat} (hold : w.oldFrom ≤ w.oldTo)
    (hnew : w.newFrom ≤ w.newTo) (holdTo : w.oldTo ≤ old.size) (hnewTo : w.newTo ≤ new.size) :
    Chain old new w.oldFrom w.newFrom (blocksWithin old new (places old new) rounds w)
      w.oldTo w.newTo := by
  induction rounds generalizing w with
  | zero => exact ⟨hold, hnew⟩
  | succ rounds ih =>
    have hb := common_longest hold hnew holdTo hnewTo
    rw [blocksWithin]
    generalize longest old new (places old new) w = b at hb
    split
    · exact ⟨hold, hnew⟩
    · have hoverOld := hb.oldTo
      have hoverNew := hb.newTo
      refine Chain.append (ih (w := ⟨w.oldFrom, b.old, w.newFrom, b.new⟩) ?_ ?_ ?_ ?_) hb
        (ih (w := ⟨b.old + b.length, w.oldTo, b.new + b.length, w.newTo⟩) ?_ ?_ ?_ ?_)
      · exact hb.oldFrom
      · exact hb.newFrom
      all_goals dsimp only; omega

/-- Two blocks that touch are one. -/
theorem Common.join {i j i' j' : Nat} {b next : Block} (hb : Common old new ⟨i, i', j, j'⟩ b)
    (hnext : Common old new ⟨b.old + b.length, i', b.new + b.length, j'⟩ next)
    (hold : b.old + b.length = next.old) (hnew : b.new + b.length = next.new) :
    Common old new ⟨i, i', j, j'⟩ ⟨b.old, b.new, b.length + next.length⟩ where
  oldFrom := hb.oldFrom
  oldTo := by have := hnext.oldTo; dsimp only at this ⊢; omega
  newFrom := hb.newFrom
  newTo := by have := hnext.newTo; dsimp only at this ⊢; omega
  equal k hk := by
    rcases Nat.lt_or_ge k b.length with hlt | hge
    · exact hb.equal k hlt
    · -- the line stands in the second block
      dsimp only at hk
      obtain ⟨m, rfl⟩ := Nat.exists_eq_add_of_le hge
      have hm := hnext.equal m (by omega)
      rwa [← hold, ← hnew, Nat.add_assoc, Nat.add_assoc] at hm

theorem chain_joined {bs : List Block} {i j i' j' : Nat} (h : Chain old new i j bs i' j') :
    Chain old new i j (joined bs) i' j' := by
  induction bs generalizing i j with
  | nil => exact h
  | cons b rest ih =>
    obtain ⟨hb, hrest⟩ := h
    have hjoined := ih hrest
    rw [joined]
    cases hmore : joined rest with
    | nil => exact ⟨hb, hmore ▸ hjoined⟩
    | cons next more =>
      rw [hmore] at hjoined
      dsimp only
      split
      · rename_i htouch
        simp only [Bool.and_eq_true, decide_eq_true_eq] at htouch
        obtain ⟨hnext, hbehind⟩ := hjoined
        refine ⟨hb.join hnext htouch.1 htouch.2, ?_⟩
        dsimp only
        rw [← Nat.add_assoc, ← Nat.add_assoc, htouch.1, htouch.2]
        exact hbehind
      · exact ⟨hb, hjoined⟩

/-- **The blocks of two texts are a chain.** -/
theorem chain_blocks (old new : Array String) :
    Chain old new 0 0 (blocks old new) old.size new.size :=
  chain_joined (chain_blocksWithin (w := ⟨0, old.size, 0, new.size⟩) (Nat.zero_le _)
    (Nat.zero_le _) (Nat.le_refl _) (Nat.le_refl _))

/-! ## Section 5: Gaps -/

/-- Between places there is no gap only if none of them is further on. -/
theorem le_of_no_gap {i i' j j' : Nat} (h : ∀ s ∈ gap i i' j j', s.common = true) :
    i' ≤ i ∧ j' ≤ j := by
  unfold gap at h
  split at h
  · exact absurd (h _ List.mem_cons_self) (by simp)
  · rename_i hno
    simp only [Bool.or_eq_true, decide_eq_true_eq, not_or, Nat.not_lt] at hno
    exact hno

/-- **Texts without gaps between their blocks are equal** from there on. By induction on the
    blocks. -/
theorem getElem?_eq_of_no_gaps {bs : List Block} {i j : Nat}
    (h : Chain old new i j bs old.size new.size)
    (hcommon : ∀ s ∈ stretchesFrom old new i j bs, s.common = true) (k : Nat) :
    old[i + k]? = new[j + k]? := by
  induction bs generalizing i j k with
  | nil =>
    obtain ⟨hold, hnew⟩ := le_of_no_gap hcommon
    rw [Array.getElem?_eq_none (by omega), Array.getElem?_eq_none (by omega)]
  | cons b rest ih =>
    obtain ⟨hb, hrest⟩ := h
    rw [stretchesFrom] at hcommon
    obtain ⟨hold, hnew⟩ := le_of_no_gap fun s hs => hcommon s (List.mem_append_left _ hs)
    -- the block begins here
    have hi : i = b.old := Nat.le_antisymm hb.oldFrom hold
    have hj : j = b.new := Nat.le_antisymm hb.newFrom hnew
    subst hi hj
    rcases Nat.lt_or_ge k b.length with hlt | hge
    · exact hb.equal k hlt
    · obtain ⟨m, rfl⟩ := Nat.exists_eq_add_of_le hge
      have hm := ih hrest (fun s hs => hcommon s
        (List.mem_append_right _ (List.mem_cons_of_mem _ hs))) m
      rwa [Nat.add_assoc, Nat.add_assoc] at hm

/-- **Different texts have a stretch that is not common.** -/
theorem exists_changed {old new : Array String} (h : old ≠ new) :
    ∃ s ∈ stretches old new, s.common = false := by
  refine Classical.byContradiction fun hnone => h ?_
  have hcommon : ∀ s ∈ stretchesFrom old new 0 0 (blocks old new), s.common = true := by
    intro s hs
    rw [← Bool.not_eq_false]
    exact fun hno => hnone ⟨s, hs, hno⟩
  apply Array.ext_getElem?
  intro k
  have hk := getElem?_eq_of_no_gaps (chain_blocks old new) hcommon k
  rwa [Nat.zero_add] at hk

end EventCheck.LineDiff
