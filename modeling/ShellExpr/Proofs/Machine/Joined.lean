import ShellExpr.Machine.Eval
import ShellExpr.Proofs.Value.Alike

/-!
# Two sessions side by side

Two sessions are `Joined` when they number the functions to come in step and what certain names are
bound to is alike.  `RunsAlike` says of two evaluations, one from either session, that they have
outcomes that are alike and leave the sessions joined.

The pairs of numbers are fixed for good, those of functions not yet made among them.  Values of the
moment are alike by the `Known` pairs, those given out so far, which only get more: a function made
later is not mistaken for one that was there before.
-/

namespace ShellExpr

variable {pairs : Nat → Nat → Prop} {names : String → Prop} {α β γ δ : Type}

/-! ### Numbers given out so far -/

/-- The pairs of numbers below `m` on the left and below `n` on the right. -/
def Known (pairs : Nat → Nat → Prop) (m n a b : Nat) : Prop :=
  pairs a b ∧ a < m ∧ b < n

/-- The numbers from `m` on and from `n` on are paired one by one. -/
def InStep (pairs : Nat → Nat → Prop) (m n : Nat) : Prop :=
  ∀ i, pairs (m + i) (n + i)

theorem Matched.known (matched : Matched pairs) (m n : Nat) : Matched (Known pairs m n) :=
  fun a b c d first second => matched a b c d first.1 second.1

theorem known_mono {m n m' n' : Nat} (left : m ≤ m') (right : n ≤ n') (a b : Nat)
    (h : Known pairs m n a b) : Known pairs m' n' a b :=
  ⟨h.1, Nat.lt_of_lt_of_le h.2.1 left, Nat.lt_of_lt_of_le h.2.2 right⟩

theorem InStep.next {m n : Nat} (h : InStep pairs m n) : InStep pairs (m + 1) (n + 1) := by
  intro i
  have later := h (i + 1)
  rwa [Nat.add_comm i, ← Nat.add_assoc, ← Nat.add_assoc] at later

theorem InStep.known {m n : Nat} (h : InStep pairs m n) : Known pairs (m + 1) (n + 1) m n :=
  ⟨h 0, Nat.lt_succ_self m, Nat.lt_succ_self n⟩

/-! ### Joined sessions -/

structure Joined (pairs : Nat → Nat → Prop) (names : String → Prop) (s t : Session) : Prop where
  inStep : InStep pairs s.nextId t.nextId
  bindings : ∀ name, names name →
    AlikeBinding (Known pairs s.nextId t.nextId) (s.env.lookup name) (t.env.lookup name)

/-- Joined sessions `s'` and `t'` that come behind `s` and `t`. -/
structure Onward (pairs : Nat → Nat → Prop) (names : String → Prop) (s t s' t' : Session) :
    Prop where
  left : s.nextId ≤ s'.nextId
  right : t.nextId ≤ t'.nextId
  joined : Joined pairs names s' t'

variable {s t s' t' : Session}

theorem Joined.refl (h : Joined pairs names s t) : Onward pairs names s t s t :=
  ⟨Nat.le_refl _, Nat.le_refl _, h⟩

theorem Onward.trans {s'' t'' : Session} (h : Onward pairs names s t s' t')
    (h' : Onward pairs names s' t' s'' t'') : Onward pairs names s t s'' t'' :=
  ⟨Nat.le_trans h.left h'.left, Nat.le_trans h.right h'.right, h'.joined⟩

theorem Onward.known (h : Onward pairs names s t s' t') (a b : Nat)
    (pair : Known pairs s.nextId t.nextId a b) : Known pairs s'.nextId t'.nextId a b :=
  known_mono h.left h.right a b pair

/-- The same bindings, and numbers that went on in step. -/
theorem Joined.renumber {m n : Nat} (h : Joined pairs names s t) (left : s.nextId ≤ m)
    (right : t.nextId ≤ n) (inStep : InStep pairs m n) :
    Onward pairs names s t { s with nextId := m } { t with nextId := n } where
  left := left
  right := right
  joined :=
    { inStep
      bindings := fun name seen => (h.bindings name seen).mono (known_mono left right) }

theorem Joined.next (h : Joined pairs names s t) : Onward pairs names s t s.next t.next :=
  h.renumber (Nat.le_succ _) (Nat.le_succ _) h.inStep.next

theorem Joined.assign (h : Joined pairs names s t) (name : String) {v w : Value}
    (value : v.Alike (Known pairs s.nextId t.nextId) w) :
    Onward pairs names s t (s.assign name v) (t.assign name w) where
  left := Nat.le_refl _
  right := Nat.le_refl _
  joined :=
    { inStep := h.inStep
      bindings := by
        intro other seen
        change AlikeBinding _ ((s.env.assign name v).lookup other)
          ((t.env.assign name w).lookup other)
        rw [Environment.lookup_assign, Environment.lookup_assign]
        split
        · exact .bound value
        · exact h.bindings other seen }

/-! ### Outcomes -/

/-- Outcomes of runs from `s` and from `t`: both have none, both are the same fatal error, or the
results are alike in the sense of `P`, and the sessions stay joined. -/
inductive OutcomesAlike (pairs : Nat → Nat → Prop) (names : String → Prop) (s t : Session)
    (P : (Nat → Nat → Prop) → α → β → Prop) : Outcome α → Outcome β → Prop where
  | none : OutcomesAlike pairs names s t P none none
  | error (fatal : FatalError) {s' t' : Session} (onward : Onward pairs names s t s' t') :
      OutcomesAlike pairs names s t P (some (.error fatal, s')) (some (.error fatal, t'))
  | ok {a : α} {b : β} {s' t' : Session} (onward : Onward pairs names s t s' t')
      (alike : P (Known pairs s'.nextId t'.nextId) a b) :
      OutcomesAlike pairs names s t P (some (.ok a, s')) (some (.ok b, t'))

/-- `x` from `s` and `y` from `t` have outcomes that are alike. -/
def RunsAlike (pairs : Nat → Nat → Prop) (names : String → Prop)
    (P : (Nat → Nat → Prop) → α → β → Prop) (x : Eval α) (y : Eval β) (s t : Session) : Prop :=
  OutcomesAlike pairs names s t P (x.run s) (y.run t)

variable {P : (Nat → Nat → Prop) → α → β → Prop} {Q : (Nat → Nat → Prop) → γ → δ → Prop}

theorem runsAlike_pure (joined : Joined pairs names s t) {a : α} {b : β}
    (alike : P (Known pairs s.nextId t.nextId) a b) :
    RunsAlike pairs names P (pure a) (pure b) s t :=
  .ok joined.refl alike

theorem runsAlike_fail (joined : Joined pairs names s t) (fatal : FatalError) :
    RunsAlike pairs names P (Eval.fail fatal) (Eval.fail fatal) s t :=
  .error fatal joined.refl

theorem runsAlike_ofExcept {P : (Nat → Nat → Prop) → α → α → Prop}
    (joined : Joined pairs names s t) {result : Except FatalError α}
    (alike : ∀ a, result = .ok a → P (Known pairs s.nextId t.nextId) a a) :
    RunsAlike pairs names P (Eval.ofExcept result) (Eval.ofExcept result) s t := by
  cases result with
  | ok a => exact runsAlike_pure joined (alike a rfl)
  | error fatal => exact runsAlike_fail joined fatal

theorem runsAlike_ofOption (joined : Joined pairs names s t) {left : Option α} {right : Option β}
    (alike : Option.Rel (P (Known pairs s.nextId t.nextId)) left right) :
    RunsAlike pairs names P (Eval.ofOption left) (Eval.ofOption right) s t := by
  cases alike with
  | some alike => exact runsAlike_pure joined alike
  | none => exact .none

theorem RunsAlike.bind {x : Eval α} {y : Eval β} {f : α → Eval γ} {g : β → Eval δ}
    (first : RunsAlike pairs names P x y s t)
    (next : ∀ {s' t' a b}, Onward pairs names s t s' t' →
      P (Known pairs s'.nextId t'.nextId) a b → RunsAlike pairs names Q (f a) (g b) s' t') :
    RunsAlike pairs names Q (x >>= f) (y >>= g) s t := by
  unfold RunsAlike at first ⊢
  rw [Eval.run_bind, Eval.run_bind]
  generalize x.run s = left, y.run t = right at first
  cases first with
  | none => exact .none
  | error fatal onward => exact .error fatal onward
  | @ok a b s' t' onward alike =>
    have second : OutcomesAlike pairs names s' t' Q ((f a).run s') ((g b).run t') :=
      next onward alike
    dsimp only
    generalize (f a).run s' = left, (g b).run t' = right at second
    cases second with
    | none => exact .none
    | error fatal later => exact .error fatal (onward.trans later)
    | ok later alike => exact .ok (onward.trans later) alike

end ShellExpr
