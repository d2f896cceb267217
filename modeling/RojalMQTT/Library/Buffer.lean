import Mathlib.Tactic.Common
import Mathlib.Algebra.Ring.Nat
import Mathlib.Algebra.Ring.Int.Defs

/-! Memory read from an address on, and buffers that remember how far they were
written.  Nothing here bounds an index: a write past the end of the allocated
region is recorded like any other, so that its absence can be proved. -/

universe u

namespace Library

def slice (m : Nat → α) : Nat → Nat → List α
  | _, 0 => []
  | i, n + 1 => m i :: slice m (i + 1) n

def Spells (m : Nat → α) : Nat → List α → Prop
  | _, [] => True
  | i, a :: l => m i = a ∧ Spells m (i + 1) l

@[simp] theorem length_slice (m : Nat → α) (i n : Nat) : (slice m i n).length = n := by
  induction n generalizing i with
  | zero => rfl
  | succ n ih => simp [slice, ih]

theorem slice_add (m : Nat → α) (i n k : Nat) :
    slice m i (n + k) = slice m i n ++ slice m (i + n) k := by
  induction n generalizing i with
  | zero => rw [Nat.zero_add, slice, List.nil_append, Nat.add_zero]
  | succ n ih =>
    rw [Nat.succ_add, slice, slice, List.cons_append, ih, Nat.add_assoc i 1 n, Nat.add_comm 1 n]

theorem take_slice (m : Nat → α) (i : Nat) {n k : Nat} (h : k ≤ n) :
    (slice m i n).take k = slice m i k := by
  obtain ⟨rest, rfl⟩ := Nat.exists_eq_add_of_le h
  rw [slice_add, List.take_left' (length_slice m i k)]

theorem slice_eq_slice_iff (m : Nat → α) (i j n : Nat) :
    slice m i n = slice m j n ↔ ∀ k < n, m (i + k) = m (j + k) := by
  induction n generalizing i j with
  | zero => exact iff_of_true rfl nofun
  | succ n ih =>
    simp only [slice, List.cons.injEq, ih, Nat.add_assoc, Nat.add_comm 1]
    constructor
    · rintro ⟨first, rest⟩ k hk
      cases k with
      | zero => exact first
      | succ k => exact rest k (Nat.lt_of_succ_lt_succ hk)
    · intro same
      exact ⟨same 0 (Nat.succ_pos n), fun k hk => same (k + 1) (Nat.succ_lt_succ hk)⟩

theorem Spells.slice_eq {m : Nat → α} {i : Nat} {l : List α} (h : Spells m i l) :
    slice m i l.length = l := by
  induction l generalizing i with
  | nil => rfl
  | cons a l ih => rw [List.length_cons, slice, h.1, ih h.2]

@[simp] theorem spells_nil (m : Nat → α) (i : Nat) : Spells m i [] := trivial

@[simp] theorem spells_cons (m : Nat → α) (i : Nat) (a : α) (l : List α) :
    Spells m i (a :: l) ↔ m i = a ∧ Spells m (i + 1) l := Iff.rfl

@[simp] theorem spells_append (m : Nat → α) (i : Nat) (l l' : List α) :
    Spells m i (l ++ l') ↔ Spells m i l ∧ Spells m (i + l.length) l' := by
  induction l generalizing i with
  | nil => simp
  | cons a l ih =>
    rw [List.cons_append, spells_cons, spells_cons, ih, List.length_cons, and_assoc,
      show i + 1 + l.length = i + (l.length + 1) by omega]

theorem Spells.congr {m m' : Nat → α} {i : Nat} {l : List α} (h : Spells m i l)
    (same : ∀ j, i ≤ j → j < i + l.length → m' j = m j) : Spells m' i l := by
  induction l generalizing i with
  | nil => trivial
  | cons a l ih =>
    rw [List.length_cons] at same
    refine ⟨(same i (by omega) (by omega)).trans h.1, ih h.2 ?_⟩
    intro j hj hl
    exact same j (by omega) (by omega)

/-- Memory that begins with the list `l`; the cells behind it hold `d`. -/
def ofList (l : List α) (d : α) : Nat → α := fun i => l[i]?.getD d

theorem spells_of_getElem {m : Nat → α} {i : Nat} {l : List α}
    (h : ∀ (k : Nat) (hk : k < l.length), m (i + k) = l[k]) : Spells m i l := by
  induction l generalizing i with
  | nil => trivial
  | cons a l ih =>
    refine ⟨h 0 (by simp), ih ?_⟩
    intro k hk
    have := h (k + 1) (by simpa using hk)
    rwa [List.getElem_cons_succ, show i + (k + 1) = i + 1 + k by omega] at this

theorem Spells.getElem {m : Nat → α} {i k : Nat} {l : List α} (h : Spells m i l)
    (hk : k < l.length) : m (i + k) = l[k] := by
  induction l generalizing i k with
  | nil => exact absurd hk (Nat.not_lt_zero k)
  | cons a l ih =>
    cases k with
    | zero => exact h.1
    | succ k =>
      have rest := ih h.2 (Nat.lt_of_succ_lt_succ hk)
      rwa [Nat.add_assoc, Nat.add_comm 1 k] at rest

theorem spells_ofList (l : List α) (d : α) : Spells (ofList l d) 0 l := by
  apply spells_of_getElem
  intro k hk
  simp [ofList, List.getElem?_eq_getElem hk]

def AgreeBelow (n : Nat) (m m' : Nat → α) : Prop := ∀ i < n, m' i = m i

theorem Spells.agreeBelow {m : Nat → α} {l : List α} (h : Spells m 0 l) (d : α) :
    AgreeBelow l.length m (ofList l d) := by
  intro i hi
  have here := h.getElem hi
  rw [Nat.zero_add] at here
  rw [ofList, List.getElem?_eq_getElem hi, Option.getD_some, here]

def splice (m : Nat → α) (n : Nat) (rest : Nat → α) : Nat → α :=
  fun i => if i < n then m i else rest i

theorem AgreeBelow.mono {n k : Nat} {m m' : Nat → α} (h : AgreeBelow n m m') (le : k ≤ n) :
    AgreeBelow k m m' := fun i hi => h i (Nat.lt_of_lt_of_le hi le)

theorem agreeBelow_splice (m : Nat → α) (n : Nat) (rest : Nat → α) :
    AgreeBelow n m (splice m n rest) := fun _ h => if_pos h

theorem splice_of_ge {m : Nat → α} {n i : Nat} {rest : Nat → α} (h : n ≤ i) :
    splice m n rest i = rest i := if_neg (Nat.not_lt.mpr h)

@[ext] structure Buffer (α : Type u) where
  cells : Nat → α
  /-- One past the highest index written so far. -/
  extent : Nat

namespace Buffer

def fresh (m : Nat → α) : Buffer α := ⟨m, 0⟩

def copy (b : Buffer α) (i : Nat) (l : List α) : Buffer α where
  cells j := if i ≤ j then l[j - i]?.getD (b.cells j) else b.cells j
  extent := if l.isEmpty then b.extent else max b.extent (i + l.length)

def read (b : Buffer α) (i n : Nat) : List α := slice b.cells i n

@[simp] theorem fresh_cells (m : Nat → α) : (fresh m).cells = m := rfl
@[simp] theorem fresh_extent (m : Nat → α) : (fresh m).extent = 0 := rfl

theorem copy_cells_of_lt {b : Buffer α} {i j : Nat} {l : List α} (h : j < i) :
    (b.copy i l).cells j = b.cells j := by
  simp [copy, Nat.not_le.mpr h]

theorem copy_cells_of_ge {b : Buffer α} {i j : Nat} {l : List α} (h : i + l.length ≤ j) :
    (b.copy i l).cells j = b.cells j := by
  simp [copy, List.getElem?_eq_none (by omega : l.length ≤ j - i)]

theorem copy_cells_add {b : Buffer α} {i k : Nat} {l : List α} (h : k < l.length) :
    (b.copy i l).cells (i + k) = l[k] := by
  simp [copy, List.getElem?_eq_getElem h]

theorem extent_copy {b : Buffer α} {i : Nat} {l : List α} (h : l ≠ []) :
    (b.copy i l).extent = max b.extent (i + l.length) := by
  simp [copy, h]

theorem extent_fresh_copy (m : Nat → α) (l : List α) :
    ((fresh m).copy 0 l).extent = l.length := by
  by_cases h : l = []
  · simp [copy, h]
  · rw [extent_copy h, fresh_extent]
    omega

@[simp] theorem copy_nil (b : Buffer α) (i : Nat) : b.copy i [] = b := by
  simp [copy]

theorem extent_copy_le {b : Buffer α} {i n : Nat} {l : List α} :
    (b.copy i l).extent ≤ n ↔ b.extent ≤ n ∧ (l = [] ∨ i + l.length ≤ n) := by
  by_cases h : l = []
  · simp [h]
  · rw [extent_copy h, Nat.max_le]
    simp [h]

theorem copy_copy (b : Buffer α) (i : Nat) (l l' : List α) :
    (b.copy i l).copy (i + l.length) l' = b.copy i (l ++ l') := by
  by_cases hl : l = []
  · simp [hl]
  by_cases hl' : l' = []
  · simp [hl']
  have hext : ((b.copy i l).copy (i + l.length) l').extent = (b.copy i (l ++ l')).extent := by
    rw [extent_copy hl', extent_copy hl, extent_copy (by simp [hl]), List.length_append]
    omega
  have hcells : ((b.copy i l).copy (i + l.length) l').cells = (b.copy i (l ++ l')).cells := by
    funext j
    by_cases h1 : j < i
    · rw [copy_cells_of_lt (by omega), copy_cells_of_lt h1, copy_cells_of_lt h1]
    · simp only [copy, Nat.not_lt.mp h1, if_true]
      by_cases h2 : i + l.length ≤ j
      · rw [if_pos h2, List.getElem?_append_right (by omega),
          List.getElem?_eq_none (by omega : l.length ≤ j - i)]
        simp [Nat.sub_add_eq]
      · rw [if_neg h2, List.getElem?_append_left (by omega)]
  exact Buffer.ext hcells hext

theorem copy_behind {b : Buffer α} {i n : Nat} {l : List α} (l' : List α) (h : n = i + l.length) :
    (b.copy i l).copy n l' = b.copy i (l ++ l') := by
  rw [h, copy_copy]

theorem copy_over (b : Buffer α) (i : Nat) {l l' : List α} (h : l.length = l'.length) :
    (b.copy i l).copy i l' = b.copy i l' := by
  by_cases hl : l' = []
  · simp [hl, List.length_eq_zero_iff.mp (h.trans (by simp [hl]))]
  have hl0 : l ≠ [] := by
    rintro rfl
    exact hl (List.length_eq_zero_iff.mp h.symm)
  have hcells : ((b.copy i l).copy i l').cells = (b.copy i l').cells := by
    funext j
    by_cases hj : i ≤ j ∧ j < i + l'.length
    · rw [show j = i + (j - i) by omega, copy_cells_add (by omega), copy_cells_add (by omega)]
    · rcases Nat.lt_or_ge j i with h1 | h1
      · rw [copy_cells_of_lt h1, copy_cells_of_lt h1, copy_cells_of_lt h1]
      · rw [copy_cells_of_ge (by omega), copy_cells_of_ge (by omega), copy_cells_of_ge (by omega)]
  have hext : ((b.copy i l).copy i l').extent = (b.copy i l').extent := by
    rw [extent_copy hl, extent_copy hl0, extent_copy hl]
    omega
  exact Buffer.ext hcells hext

theorem spells_copy (b : Buffer α) (i : Nat) (l : List α) : Spells (b.copy i l).cells i l :=
  spells_of_getElem (fun _ hk => copy_cells_add hk)

theorem spells_copy_of_disjoint {b : Buffer α} {i j : Nat} {l l' : List α}
    (h : Spells b.cells i l) (away : i + l.length ≤ j ∨ j + l'.length ≤ i) :
    Spells (b.copy j l').cells i l := by
  apply h.congr
  intro k hi hl
  rcases away with away | away
  · exact copy_cells_of_lt (by omega)
  · exact copy_cells_of_ge (by omega)

theorem read_eq_of_spells {b : Buffer α} {i : Nat} {l : List α} (h : Spells b.cells i l) :
    b.read i l.length = l := h.slice_eq

theorem read_of_spells {b : Buffer α} {i n : Nat} {l : List α} (spells : Spells b.cells i l)
    (h : n ≤ l.length) : b.read i n = l.take n := by
  rw [← List.take_append_drop n l, spells_append] at spells
  have read := read_eq_of_spells spells.1
  rwa [List.length_take, Nat.min_eq_left h] at read

theorem read_copy {b : Buffer α} {i n : Nat} {l : List α} (h : n ≤ l.length) :
    (b.copy i l).read i n = l.take n := read_of_spells (b.spells_copy i l) h

/-- `b'` came from `b` by writes that its extent accounts for. -/
structure Extends (b b' : Buffer α) : Prop where
  extent_le : b.extent ≤ b'.extent
  untouched : ∀ j, b'.extent ≤ j → b'.cells j = b.cells j

theorem Extends.refl (b : Buffer α) : b.Extends b := ⟨Nat.le_refl _, fun _ _ => rfl⟩

theorem Extends.trans {b b' b'' : Buffer α} (h : b.Extends b') (h' : b'.Extends b'') :
    b.Extends b'' :=
  ⟨Nat.le_trans h.extent_le h'.extent_le,
    fun j hj => (h'.untouched j hj).trans (h.untouched j (Nat.le_trans h'.extent_le hj))⟩

theorem extends_copy (b : Buffer α) (i : Nat) (l : List α) : b.Extends (b.copy i l) := by
  by_cases h : l = []
  · rw [h, copy_nil]
    exact Extends.refl b
  · refine ⟨by rw [extent_copy h]; omega, ?_⟩
    intro j hj
    rw [extent_copy h] at hj
    exact copy_cells_of_ge (by omega)

end Buffer

end Library
