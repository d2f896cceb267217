import RojalMQTT.Library.Buffer
import Mathlib.Algebra.BigOperators.Ring.Finset

/-! Base-128 lengths, least significant digit first: every byte but the last
carries the continuation bit. -/

namespace Library.Base128

/-- The shortest encoding of `n`. -/
def digits (n : Nat) : List UInt8 :=
  if n < 128 then [UInt8.ofNat n] else UInt8.ofNat (n % 128 + 128) :: digits (n / 128)

/-- Read at most `k` digits from index `i` on: the value and the index behind them. -/
def scan (m : Nat → UInt8) : Nat → Nat → Option (Nat × Nat)
  | _, 0 => none
  | i, k + 1 =>
    if (m i).toNat < 128 then some ((m i).toNat, i + 1)
    else (scan m (i + 1) k).map fun r => ((m i).toNat - 128 + 128 * r.1, r.2)

def parse : Nat → List UInt8 → Option (Nat × List UInt8)
  | 0, _ => none
  | _ + 1, [] => none
  | k + 1, b :: l =>
    if b.toNat < 128 then some (b.toNat, l)
    else (parse k l).map fun r => (b.toNat - 128 + 128 * r.1, r.2)

theorem digits_of_lt {n : Nat} (h : n < 128) : digits n = [UInt8.ofNat n] := by
  rw [digits, if_pos h]

theorem digits_of_ge {n : Nat} (h : 128 ≤ n) :
    digits n = UInt8.ofNat (n % 128 + 128) :: digits (n / 128) := by
  rw [digits, if_neg (by omega)]

theorem digits_ne_nil (n : Nat) : digits n ≠ [] := by
  by_cases h : n < 128
  · simp [digits_of_lt h]
  · simp [digits_of_ge (Nat.not_lt.mp h)]

theorem length_digits_pos (n : Nat) : 0 < (digits n).length :=
  List.length_pos_iff.mpr (digits_ne_nil n)

theorem length_digits_le_iff (k n : Nat) : (digits n).length ≤ k + 1 ↔ n < 128 ^ (k + 1) := by
  induction k generalizing n with
  | zero =>
    by_cases h : n < 128
    · simp [digits_of_lt h, h]
    · rw [digits_of_ge (by omega), List.length_cons]
      have := length_digits_pos (n / 128)
      omega
  | succ k ih =>
    by_cases h : n < 128
    · rw [digits_of_lt h, Nat.pow_succ]
      have : 0 < 128 ^ (k + 1) := Nat.pos_of_ne_zero (by simp)
      simp only [List.length_singleton]
      omega
    · rw [digits_of_ge (by omega), List.length_cons, Nat.add_le_add_iff_right, ih,
        Nat.div_lt_iff_lt_mul (by decide), ← Nat.pow_succ]

theorem toNat_last {n : Nat} (h : n < 128) : (UInt8.ofNat n).toNat = n := by
  simp [Nat.mod_eq_of_lt (by omega : n < 256)]

theorem toNat_digit (n : Nat) : (UInt8.ofNat (n % 128 + 128)).toNat = n % 128 + 128 := by
  simp [Nat.mod_eq_of_lt (by omega : n % 128 + 128 < 256)]

theorem scan_of_spells {m : Nat → UInt8} {i k n : Nat} (h : Spells m i (digits n))
    (fits : (digits n).length ≤ k) : scan m i k = some (n, i + (digits n).length) := by
  induction k generalizing i n with
  | zero =>
    have := length_digits_pos n
    omega
  | succ k ih =>
    by_cases small : n < 128
    · rw [digits_of_lt small] at h ⊢
      rw [scan, h.1, toNat_last small, if_pos small, List.length_singleton]
    · have split := digits_of_ge (Nat.not_lt.mp small)
      rw [split] at h fits ⊢
      rw [scan, h.1, toNat_digit, if_neg (by omega), ih h.2 (by simpa using fits)]
      simp only [Option.map_some, List.length_cons, Option.some.injEq, Prod.mk.injEq]
      omega

theorem scan_of_spells_long {m : Nat → UInt8} {i k n : Nat} (h : Spells m i (digits n))
    (long : k < (digits n).length) : scan m i k = none := by
  induction k generalizing i n with
  | zero => rfl
  | succ k ih =>
    by_cases small : n < 128
    · rw [digits_of_lt small, List.length_singleton] at long
      omega
    · have split := digits_of_ge (Nat.not_lt.mp small)
      rw [split] at h long
      rw [scan, h.1, toNat_digit, if_neg (by omega), ih h.2 (by simpa using long), Option.map_none]

theorem parse_digits {k n : Nat} (l : List UInt8) (fits : (digits n).length ≤ k) :
    parse k (digits n ++ l) = some (n, l) := by
  induction k generalizing n with
  | zero =>
    have := length_digits_pos n
    omega
  | succ k ih =>
    by_cases small : n < 128
    · simp [digits_of_lt small, parse, toNat_last small, small]
    · have split := digits_of_ge (Nat.not_lt.mp small)
      rw [split] at fits ⊢
      rw [List.cons_append, parse, toNat_digit, if_neg (by omega), ih (by simpa using fits)]
      simp only [Option.map_some, Option.some.injEq, Prod.mk.injEq, and_true]
      omega

theorem length_of_parse {k n : Nat} {l rest : List UInt8} (h : parse k l = some (n, rest)) :
    rest.length < l.length := by
  induction k generalizing l n with
  | zero => cases h
  | succ k ih =>
    cases l with
    | nil => cases h
    | cons b l =>
      rw [parse] at h
      split at h
      · cases h
        exact Nat.lt_succ_self _
      · obtain ⟨⟨n₁, rest₁⟩, parsed, same⟩ := Option.map_eq_some_iff.mp h
        cases same
        exact Nat.lt_succ_of_lt (ih parsed)

theorem scan_end {m : Nat → UInt8} {i k v e : Nat} (h : scan m i k = some (v, e)) :
    i < e ∧ e ≤ i + k := by
  induction k generalizing i v e with
  | zero => simp [scan] at h
  | succ k ih =>
    rw [scan] at h
    split at h
    · simp only [Option.some.injEq, Prod.mk.injEq] at h
      omega
    · obtain ⟨r, hr, he⟩ := Option.map_eq_some_iff.mp h
      have := ih hr
      simp only [Prod.mk.injEq] at he
      omega

theorem scan_lt {m : Nat → UInt8} {i k v e : Nat} (h : scan m i k = some (v, e)) :
    v < 128 ^ k := by
  induction k generalizing i v e with
  | zero => simp [scan] at h
  | succ k ih =>
    rw [scan] at h
    rw [Nat.pow_succ]
    split at h
    · simp only [Option.some.injEq, Prod.mk.injEq] at h
      have : 0 < 128 ^ k := Nat.pos_of_ne_zero (by simp)
      omega
    · obtain ⟨r, hr, he⟩ := Option.map_eq_some_iff.mp h
      have := ih hr
      have := (m i).toNat_lt
      simp only [Prod.mk.injEq] at he
      omega

theorem scan_eq_sum {m : Nat → UInt8} {i k v e : Nat} (h : scan m i k = some (v, e)) :
    v = ∑ t ∈ Finset.range (e - i), (m (i + t)).toNat % 128 * 128 ^ t := by
  induction k generalizing i v with
  | zero => cases h
  | succ k ih =>
    rw [scan] at h
    split at h
    case isTrue last =>
      cases h
      rw [Nat.add_sub_cancel_left, Finset.sum_range_one, Nat.pow_zero, Nat.mul_one, Nat.add_zero,
        Nat.mod_eq_of_lt last]
    case isFalse more =>
      obtain ⟨⟨v₁, e₁⟩, rest, same⟩ := Option.map_eq_some_iff.mp h
      simp only [Prod.mk.injEq] at same
      obtain ⟨rfl, rfl⟩ := same
      have after := (scan_end rest).1
      have high := (m i).toNat_lt
      have first : (m (i + 0)).toNat % 128 * 128 ^ 0 = (m i).toNat - 128 := by
        rw [Nat.add_zero, Nat.pow_zero, Nat.mul_one]
        omega
      have weight (t : Nat) : 128 * ((m (i + 1 + t)).toNat % 128 * 128 ^ t) =
          (m (i + (t + 1))).toNat % 128 * 128 ^ (t + 1) := by
        rw [Nat.pow_succ, Nat.mul_left_comm, Nat.mul_comm 128, Nat.add_assoc i, Nat.add_comm 1]
      rw [show e₁ - i = e₁ - (i + 1) + 1 by omega, Finset.sum_range_succ', ih rest, Finset.mul_sum,
        Finset.sum_congr rfl fun t _ => weight t, first, Nat.add_comm]

theorem scan_congr {m m' : Nat → UInt8} {i k v e : Nat} (h : scan m i k = some (v, e))
    (same : ∀ j, i ≤ j → j < e → m' j = m j) : scan m' i k = some (v, e) := by
  induction k generalizing i v e with
  | zero => simp [scan] at h
  | succ k ih =>
    have first : m' i = m i := same i (Nat.le_refl _) (scan_end h).1
    rw [scan] at h ⊢
    rw [first]
    split at h
    · rwa [if_pos ‹_›]
    · rw [if_neg ‹_›]
      obtain ⟨r, hr, he⟩ := Option.map_eq_some_iff.mp h
      simp only [Prod.mk.injEq] at he
      rw [ih hr (fun j hj hl => same j (by omega) (by omega))]
      simp [he]

theorem scan_eq_none_iff {m : Nat → UInt8} {i k : Nat} :
    scan m i k = none ↔ ∀ j, i ≤ j → j < i + k → 128 ≤ (m j).toNat := by
  induction k generalizing i with
  | zero => simp [scan]; omega
  | succ k ih =>
    rw [scan]
    split
    · simp only [reduceCtorEq, false_iff, Classical.not_forall]
      exact ⟨i, Nat.le_refl _, by omega, by omega⟩
    · rw [Option.map_eq_none_iff, ih]
      constructor
      · intro h j hj hl
        rcases Nat.eq_or_lt_of_le hj with rfl | hlt
        · omega
        · exact h j hlt (by omega)
      · intro h j hj hl
        exact h j (by omega) (by omega)

theorem scan_of_last {m : Nat → UInt8} {i k e : Nat} (more : ∀ j, i ≤ j → j < e → 128 ≤ (m j).toNat)
    (last : (m e).toNat < 128) (start : i ≤ e) (inside : e < i + k) :
    ∃ v, scan m i k = some (v, e + 1) ∧ (m e).toNat ≤ v := by
  induction k generalizing i with
  | zero => omega
  | succ k ih =>
    rw [scan]
    rcases Nat.eq_or_lt_of_le start with rfl | before
    · exact ⟨_, if_pos last, Nat.le_refl _⟩
    · obtain ⟨v, rest, large⟩ := ih (fun j hj => more j (by omega)) before (by omega)
      have first := more i (Nat.le_refl _) before
      refine ⟨(m i).toNat - 128 + 128 * v, ?_, by omega⟩
      rw [if_neg (by omega), rest, Option.map_some]

theorem continues_of_scan {m : Nat → UInt8} {i k v e : Nat} (h : scan m i k = some (v, e)) :
    ∀ j, i ≤ j → j + 1 < e → 128 ≤ (m j).toNat := by
  induction k generalizing i v e with
  | zero => simp [scan] at h
  | succ k ih =>
    rw [scan] at h
    intro j hj hl
    split at h
    · simp only [Option.some.injEq, Prod.mk.injEq] at h
      omega
    · obtain ⟨r, hr, he⟩ := Option.map_eq_some_iff.mp h
      simp only [Prod.mk.injEq] at he
      rcases Nat.eq_or_lt_of_le hj with rfl | after
      · omega
      · exact ih hr j after (by omega)

theorem last_of_scan {m : Nat → UInt8} {i k v e : Nat} (h : scan m i k = some (v, e + 1)) :
    (m e).toNat < 128 := by
  induction k generalizing i v with
  | zero => cases h
  | succ k ih =>
    rw [scan] at h
    split at h
    case isTrue last =>
      cases h
      exact last
    case isFalse =>
      obtain ⟨⟨v₁, e₁⟩, hr, he⟩ := Option.map_eq_some_iff.mp h
      cases he
      exact ih hr

/-- A number that is cut off in front of index `c` and continued by a zero is not
larger, and differs unless the cut took a single zero digit. -/
theorem scan_cut {m m' : Nat → UInt8} {i k c v e : Nat} (h : scan m i k = some (v, e))
    (start : i ≤ c) (cut : c < e) (same : ∀ j, i ≤ j → j < c → m' j = m j) (zero : m' c = 0) :
    ∃ v', scan m' i k = some (v', c + 1) ∧ v' ≤ v ∧ (e = c + 1 → (v' = v ↔ m c = 0)) := by
  induction k generalizing i v with
  | zero => simp [scan] at h
  | succ k ih =>
    rw [scan] at h
    rcases Nat.eq_or_lt_of_le start with rfl | before
    · refine ⟨0, by simp [scan, zero], Nat.zero_le v, fun last => ?_⟩
      split at h
      · simp only [Option.some.injEq, Prod.mk.injEq] at h
        rw [← h.1, eq_comm, ← UInt8.toNat_inj, UInt8.toNat_zero]
      · obtain ⟨r, hr, he⟩ := Option.map_eq_some_iff.mp h
        have := (scan_end hr).1
        simp only [Prod.mk.injEq] at he
        omega
    · split at h
      · simp only [Option.some.injEq, Prod.mk.injEq] at h
        omega
      · obtain ⟨⟨v₁, e₁⟩, hr, he⟩ := Option.map_eq_some_iff.mp h
        simp only [Prod.mk.injEq] at he
        obtain ⟨rfl, rfl⟩ := he
        obtain ⟨v', scanned, le, eq⟩ := ih hr before (fun j hj => same j (by omega))
        refine ⟨(m i).toNat - 128 + 128 * v', ?_, by omega, fun last => ?_⟩
        · rw [scan, same i (Nat.le_refl i) before, if_neg ‹_›, scanned, Option.map_some]
        · rw [← eq last]
          omega

theorem length_digits_le_of_scan {m : Nat → UInt8} {i k v e : Nat} (h : scan m i k = some (v, e)) :
    i + (digits v).length ≤ e := by
  induction k generalizing i v with
  | zero => cases h
  | succ k ih =>
    have after := (scan_end h).1
    by_cases small : v < 128
    · rw [digits_of_lt small, List.length_singleton]
      omega
    · rw [scan] at h
      split at h
      · simp only [Option.some.injEq, Prod.mk.injEq] at h
        omega
      · obtain ⟨⟨v₁, e₁⟩, rest, same⟩ := Option.map_eq_some_iff.mp h
        have high := (m i).toNat_lt
        simp only [Prod.mk.injEq] at same
        obtain ⟨rfl, rfl⟩ := same
        have := ih rest
        rw [digits_of_ge (Nat.not_lt.mp small), List.length_cons,
          show ((m i).toNat - 128 + 128 * v₁) / 128 = v₁ by omega]
        omega

theorem spells_of_scan {m : Nat → UInt8} {i k v e : Nat} (h : scan m i k = some (v, e))
    (size : e = i + (digits v).length) : Spells m i (digits v) := by
  induction k generalizing i v with
  | zero => cases h
  | succ k ih =>
    rw [scan] at h
    split at h
    case isTrue last =>
      simp only [Option.some.injEq, Prod.mk.injEq] at h
      obtain ⟨rfl, -⟩ := h
      rw [digits_of_lt last, UInt8.ofNat_toNat]
      exact ⟨rfl, trivial⟩
    case isFalse more =>
      obtain ⟨⟨v₁, e₁⟩, rest, same⟩ := Option.map_eq_some_iff.mp h
      have high := (m i).toNat_lt
      simp only [Prod.mk.injEq] at same
      obtain ⟨rfl, rfl⟩ := same
      have after := (scan_end rest).1
      have large : 128 ≤ (m i).toNat - 128 + 128 * v₁ := by
        by_contra small
        rw [digits_of_lt (Nat.not_le.mp small), List.length_singleton] at size
        omega
      have first : ((m i).toNat - 128 + 128 * v₁) % 128 + 128 = (m i).toNat := by omega
      have tail : ((m i).toNat - 128 + 128 * v₁) / 128 = v₁ := by omega
      rw [digits_of_ge large, tail, List.length_cons] at size
      rw [digits_of_ge large, first, tail, UInt8.ofNat_toNat]
      exact ⟨rfl, ih rest (by omega)⟩

/-- No other spelling of the number that is read here is shorter. -/
def Shortest (m : Nat → UInt8) (i k : Nat) : Prop :=
  ∀ v e, scan m i k = some (v, e) → ∀ m' e', scan m' i k = some (v, e') → e ≤ e'

theorem Shortest.spells {m : Nat → UInt8} {i k v e : Nat} (shortest : Shortest m i k)
    (h : scan m i k = some (v, e)) : e = i + (digits v).length ∧ Spells m i (digits v) := by
  have least := length_digits_le_of_scan h
  have within := (scan_end h).2
  have spelled := ((Buffer.fresh m).copy i (digits v)).spells_copy i (digits v)
  have short := shortest v e h _ _ (scan_of_spells spelled (k := k) (by omega))
  have size : e = i + (digits v).length := by omega
  exact ⟨size, spells_of_scan h size⟩

theorem shortest_of_spells {m : Nat → UInt8} {i k n : Nat} (h : Spells m i (digits n))
    (fits : (digits n).length ≤ k) : Shortest m i k := by
  intro v e read m' e' other
  rw [scan_of_spells h fits] at read
  cases read
  exact length_digits_le_of_scan other

end Library.Base128
