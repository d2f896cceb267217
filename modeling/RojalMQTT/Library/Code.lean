import Mathlib.Tactic.Common

/-! Streams of code words, and readers that take one word at a time off the front. -/

universe u v

namespace Library

structure Reader (α : Type u) (β : Type v) where
  read : List β → Option (α × List β)
  shorter : ∀ {l a rest}, read l = some (a, rest) → rest.length < l.length

namespace Reader

variable {α : Type u} {β : Type v}

def readAll (r : Reader α β) (l : List β) : Option (List α) :=
  if l = [] then some []
  else match _ : r.read l with
    | none => none
    | some (a, rest) => (r.readAll rest).map (a :: ·)
termination_by l.length
decreasing_by exact r.shorter ‹_›

/-- The reader finds this value behind its word, whatever follows. -/
def Finds (r : Reader α β) (word : α → List β) (a : α) : Prop :=
  ∀ rest, r.read (word a ++ rest) = some (a, rest)

variable {r : Reader α β} {word : α → List β}

@[simp] theorem readAll_nil (r : Reader α β) : r.readAll [] = some [] := by
  rw [readAll, if_pos rfl]

theorem readAll_cons {l rest : List β} {a : α} (h : r.read l = some (a, rest)) :
    r.readAll l = (r.readAll rest).map (a :: ·) := by
  have goes : l ≠ [] := by
    rintro rfl
    exact Nat.not_lt_zero _ (r.shorter h)
  rw [readAll, if_neg goes]
  split
  case h_1 none => cases h.symm.trans none
  case h_2 a' rest' some =>
    cases h.symm.trans some
    rfl

theorem readAll_flatMap {as : List α} (finds : ∀ a ∈ as, r.Finds word a) :
    r.readAll (as.flatMap word) = some as := by
  induction as with
  | nil => exact readAll_nil r
  | cons a as ih =>
    have head := finds a List.mem_cons_self (as.flatMap word)
    have tail := ih fun b hb => finds b (List.mem_cons_of_mem a hb)
    rw [List.flatMap_cons, readAll_cons head, tail, Option.map_some]

end Reader

end Library
