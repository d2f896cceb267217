import Mathlib.Tactic.Common
import Mathlib.Algebra.Ring.Nat
import Mathlib.Algebra.Ring.Int.Defs

/-! Machines that may fault, and what holds along all of their runs. -/

namespace Library

abbrev Machine (σ ι ο ε : Type*) := σ → ι → Except ε (ο × σ)

theorem exists_of_any {x : Except ε α} {p : α → Bool} (h : x.toOption.any p = true) :
    ∃ a, x = .ok a ∧ p a = true := by
  cases x with
  | error e => cases h
  | ok a => exact ⟨a, rfl, h⟩

namespace Machine

variable {σ ι ο ε γ : Type*}

/-- `P` holds of every step of the run on the given inputs, up to its end or its
first fault.  `note` keeps a history beside the state; `P` sees the history and
the state before the step, the input, the output and the state after it. -/
def Always (step : Machine σ ι ο ε) (note : γ → ι → ο → γ)
    (P : γ → σ → ι → ο → σ → Prop) : γ → σ → List ι → Prop
  | _, _, [] => True
  | g, s, i :: is => match step s i with
    | .error _ => True
    | .ok (o, s') => P g s i o s' ∧ Always step note P (note g i o) s' is

variable {step : Machine σ ι ο ε} {note : γ → ι → ο → γ} {P Q : γ → σ → ι → ο → σ → Prop}

theorem always_cons {g : γ} {s t : σ} {i : ι} {o : ο} {is : List ι}
    (h : step s i = .ok (o, t)) :
    Always step note P g s (i :: is) ↔
      P g s i o t ∧ Always step note P (note g i o) t is := by
  simp [Always, h]

theorem always_cons_error {g : γ} {s : σ} {i : ι} {e : ε} {is : List ι}
    (h : step s i = .error e) : Always step note P g s (i :: is) := by
  simp [Always, h]

instance Always.decidable [∀ g s i o s', Decidable (P g s i o s')] :
    ∀ g s is, Decidable (Always step note P g s is)
  | _, _, [] => inferInstanceAs (Decidable True)
  | g, s, i :: is => match h : step s i with
    | .error _ => isTrue (always_cons_error h)
    | .ok (o, s') =>
      have := Always.decidable (note g i o) s' is
      decidable_of_iff _ (always_cons h).symm

theorem Always.of_step {I : γ → σ → Prop}
    (one : ∀ g s i o s', step s i = .ok (o, s') → I g s → Q g s i o s' →
      P g s i o s' ∧ I (note g i o) s')
    {g : γ} {s : σ} {is : List ι} (start : I g s) (h : Always step note Q g s is) :
    Always step note P g s is := by
  induction is generalizing g s with
  | nil => trivial
  | cons i is ih =>
    cases hs : step s i with
    | error e => exact always_cons_error hs
    | ok r =>
      obtain ⟨hq, rest⟩ := (always_cons hs).mp h
      obtain ⟨hp, next⟩ := one g s i r.1 r.2 hs start hq
      exact (always_cons hs).mpr ⟨hp, ih next rest⟩

theorem Always.mono (weaker : ∀ g s i o s', Q g s i o s' → P g s i o s') {g : γ} {s : σ}
    {is : List ι} (h : Always step note Q g s is) : Always step note P g s is :=
  .of_step (I := fun _ _ => True) (fun g s i o s' _ _ q => ⟨weaker g s i o s' q, trivial⟩)
    trivial h

theorem always_true {g : γ} {s : σ} {is : List ι} :
    Always step note (fun _ _ _ _ _ => True) g s is := by
  induction is generalizing g s with
  | nil => trivial
  | cons i is ih =>
    cases hs : step s i with
    | error e => exact always_cons_error hs
    | ok r => exact (always_cons hs).mpr ⟨trivial, ih⟩

theorem Always.of_inv {I : γ → σ → Prop}
    (one : ∀ g s i o s', step s i = .ok (o, s') → I g s → P g s i o s' ∧ I (note g i o) s')
    {g : γ} {s : σ} {is : List ι} (start : I g s) : Always step note P g s is :=
  .of_step (fun g s i o s' hs hi _ => one g s i o s' hs hi) start always_true

/-- Two properties that agree at every step of a run, as long as both have held
so far, hold along the same runs. -/
theorem always_iff {I : γ → σ → Prop}
    (one : ∀ g s i o s', step s i = .ok (o, s') → I g s →
      (P g s i o s' ↔ Q g s i o s') ∧ (Q g s i o s' → I (note g i o) s'))
    {g : γ} {s : σ} {is : List ι} (start : I g s) :
    Always step note P g s is ↔ Always step note Q g s is := by
  induction is generalizing g s with
  | nil => exact Iff.rfl
  | cons i is ih =>
    cases hs : step s i with
    | error e => exact ⟨fun _ => always_cons_error hs, fun _ => always_cons_error hs⟩
    | ok r =>
      obtain ⟨agree, next⟩ := one g s i r.1 r.2 hs start
      rw [always_cons hs, always_cons hs, agree]
      exact and_congr_right fun hq => ih (next hq)

/-- `P` holds of every step of the run on the given inputs, a fault at its end
included: it sees the state, the input and the result. -/
def Each (step : Machine σ ι ο ε) (P : σ → ι → Except ε (ο × σ) → Prop) : σ → List ι → Prop
  | _, [] => True
  | s, i :: is => P s i (step s i) ∧ match step s i with
    | .error _ => True
    | .ok (_, s') => Each step P s' is

theorem each_iff {step : Machine σ ι ο ε} {P Q : σ → ι → Except ε (ο × σ) → Prop}
    (one : ∀ s i, P s i (step s i) ↔ Q s i (step s i)) (s : σ) (is : List ι) :
    Each step P s is ↔ Each step Q s is := by
  induction is generalizing s with
  | nil => exact Iff.rfl
  | cons i is ih =>
    rw [Each, Each, one]
    cases step s i with
    | error e => exact Iff.rfl
    | ok r => exact and_congr_right fun _ => ih r.2

theorem Each.of_inv {P : σ → ι → Except ε (ο × σ) → Prop} {I : σ → Prop} {s : σ} {is : List ι}
    (one : ∀ s, ∀ i ∈ is, I s → P s i (step s i) ∧ ∀ o s', step s i = .ok (o, s') → I s')
    (start : I s) : Each step P s is := by
  induction is generalizing s with
  | nil => trivial
  | cons i is ih =>
    obtain ⟨now, next⟩ := one s i List.mem_cons_self start
    refine ⟨now, ?_⟩
    cases run : step s i with
    | error e => trivial
    | ok r => exact ih (fun s i mem => one s i (List.mem_cons_of_mem _ mem)) (next r.1 r.2 run)

inductive Runs (step : Machine σ ι ο ε) : σ → List ι → List ο → σ → Prop
  | nil : Runs step s [] [] s
  | cons (one : step s i = .ok (o, s')) (rest : Runs step s' is os t) :
      Runs step s (i :: is) (o :: os) t

def run (step : Machine σ ι ο ε) : σ → List ι → Except ε (List ο × σ)
  | s, [] => .ok ([], s)
  | s, i :: is => match step s i with
    | .error e => .error e
    | .ok (o, s') => match run step s' is with
      | .error e => .error e
      | .ok (os, t) => .ok (o :: os, t)

theorem Runs.of_run (h : run step s is = .ok (os, t)) : Runs step s is os t := by
  induction is generalizing s os with
  | nil =>
    cases h
    exact .nil
  | cons i is ih =>
    rw [run] at h
    split at h
    case h_1 => cases h
    case h_2 one =>
      split at h
      case h_1 => cases h
      case h_2 rest =>
        cases h
        exact .cons one (ih rest)

theorem Runs.append (h : Runs step s is os s') (h' : Runs step s' is' os' t) :
    Runs step s (is ++ is') (os ++ os') t := by
  induction h with
  | nil => exact h'
  | cons one rest ih => exact .cons one (ih h')

theorem Runs.inv {I : σ → Prop} (h : Runs step s is os t) (base : I s)
    (one : ∀ s i o s', I s → step s i = .ok (o, s') → I s') : I t := by
  induction h with
  | nil => exact base
  | cons first rest ih => exact ih (one _ _ _ _ base first)

theorem Each.of_runs {P : σ → ι → Except ε (ο × σ) → Prop} {I : σ → Prop}
    (h : Runs step s is os t) (base : I s)
    (one : ∀ s i o s', I s → step s i = .ok (o, s') → P s i (.ok (o, s')) ∧ I s') :
    Each step P s is := by
  induction h with
  | nil => trivial
  | cons first rest ih =>
    obtain ⟨now, next⟩ := one _ _ _ _ base first
    rw [Each, first]
    exact ⟨now, ih next⟩

inductive Reachable (step : Machine σ ι ο ε) (start : σ) : σ → Prop
  | start : Reachable step start start
  | step (h : Reachable step start s) (run : step s i = .ok (o, s')) : Reachable step start s'

theorem Reachable.inv {I : σ → Prop} {start s : σ} (h : Reachable step start s) (base : I start)
    (one : ∀ s i o s', I s → step s i = .ok (o, s') → I s') : I s := by
  induction h with
  | start => exact base
  | step h run ih => exact one _ _ _ _ ih run

theorem Runs.reachable (h : Runs step s is os t) : Reachable step start s → Reachable step start t := by
  induction h with
  | nil => exact id
  | cons one rest ih => exact fun from' => ih (from'.step one)

inductive Trace {τ : Type*} (Step : τ → ι → ο → τ → Prop) : τ → List ι → List ο → τ → Prop
  | nil : Trace Step p [] [] p
  | cons (one : Step p i o p') (rest : Trace Step p' is os q) : Trace Step p (i :: is) (o :: os) q

/-- Refinement: a run is one of every machine that allows each of its steps. -/
theorem Runs.trace {τ : Type*} {f : σ → τ} {Step : τ → ι → ο → τ → Prop}
    (h : Runs step s is os t)
    (refines : ∀ s, ∀ i ∈ is, ∀ o s', step s i = .ok (o, s') → Step (f s) i o (f s')) :
    Trace Step (f s) is os (f t) := by
  induction h with
  | nil => exact .nil
  | cons one rest ih =>
    refine .cons (refines _ _ List.mem_cons_self _ _ one) (ih fun s i mem => ?_)
    exact refines s i (List.mem_cons_of_mem _ mem)

/-- The histories and states that the runs from a start lead to whose steps all meet `Q`. -/
inductive Reaches (step : Machine σ ι ο ε) (note : γ → ι → ο → γ)
    (Q : γ → σ → ι → ο → σ → Prop) (g₀ : γ) (s₀ : σ) : γ → σ → Prop
  | start : Reaches step note Q g₀ s₀ g₀ s₀
  | step (h : Reaches step note Q g₀ s₀ g s) (run : step s i = .ok (o, s'))
      (meets : Q g s i o s') : Reaches step note Q g₀ s₀ (note g i o) s'

theorem Reaches.inv {I : γ → σ → Prop} {g₀ g : γ} {s₀ s : σ}
    (h : Reaches step note Q g₀ s₀ g s) (base : I g₀ s₀)
    (one : ∀ g s i o s', I g s → step s i = .ok (o, s') → Q g s i o s' → I (note g i o) s') :
    I g s := by
  induction h with
  | start => exact base
  | step h run meets ih => exact one _ _ _ _ _ ih run meets

end Machine

end Library
