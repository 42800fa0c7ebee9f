import ShellExpr.Proofs.Machine.Alike

/-!
# No other binding matters

Two environments that agree on the names of an expression give it the same outcome, whatever else
they bind, and the expression touches nothing else in either.  Functions made on the way, such as
copies of builtins, get different numbers where the two sessions have made different numbers of
functions before, so values are the same up to the numbers given out since.

A number says when a function was made, so in a session every function has a number below the next
one.  The sessions that evaluations lead to keep to this, by the same walk through the machine: it
is a session joined with itself.
-/

namespace ShellExpr

open Machine

/-! ### Numbered sessions -/

/-- All functions in the value have numbers below `n`. -/
def Value.Numbered (n : Nat) (v : Value) : Prop :=
  v.Alike (fun a b => a = b ∧ a < n) v

/-- All functions bound in the session have numbers that it gave out. -/
def Session.Numbered (s : Session) : Prop :=
  ∀ name v, s.env.lookup name = some v → v.Numbered s.nextId

/-- A session without bindings, the initial one among them. -/
theorem numbered_empty (n : Nat) : (⟨.empty, n⟩ : Session).Numbered := by
  intro name v bound
  contradiction

theorem Session.Numbered.assign {s : Session} (h : s.Numbered) (name : String) {v : Value}
    (value : v.Numbered s.nextId) : (s.assign name v).Numbered := by
  intro other w bound
  change (s.env.assign name v).lookup other = some w at bound
  rw [Environment.lookup_assign] at bound
  split at bound
  · cases bound
    exact value
  · exact h other w bound

theorem matched_eq : Matched Eq := by
  rintro a b c d rfl rfl
  rfl

theorem Session.Numbered.joined {s : Session} (h : s.Numbered) :
    Joined Eq (fun _ => True) s s where
  inStep _ := rfl
  bindings name _ := by
    cases found : s.env.lookup name with
    | none => exact .unbound
    | some v =>
      refine .bound ((h name v found).mono ?_)
      rintro a b ⟨rfl, below⟩
      exact ⟨rfl, below, below⟩

theorem numbered_of_joined {s : Session} (h : Joined Eq (fun _ => True) s s) : s.Numbered := by
  intro name v found
  have bound := h.bindings name trivial
  rw [found] at bound
  cases bound with
  | bound value => exact value.mono fun a b known => ⟨known.1, known.2.1⟩

namespace Machine

/-- Evaluations keep a session numbered, and their values are numbered as well. -/
theorem numbered_evaluate {s after : Session} (h : s.Numbered) {depth : Nat} {source : String}
    {outcome : Except FatalError Value}
    (ran : (evaluate depth source).run s = some (outcome, after)) :
    after.Numbered ∧ ∀ v, outcome = .ok v → v.Numbered after.nextId := by
  have inView : TextInView (fun _ => True) source :=
    fun atoms scanned => ⟨fun _ _ => trivial, fun _ _ => trivial⟩
  have runs := alike_evaluate matched_eq inView h.joined depth
  unfold RunsAlike at runs
  rw [ran] at runs
  cases runs with
  | error fatal onward => exact ⟨numbered_of_joined onward.joined, nofun⟩
  | ok onward alike =>
    refine ⟨numbered_of_joined onward.joined, ?_⟩
    rintro v ⟨⟩
    exact alike.mono fun a b known => ⟨known.1, known.2.1⟩

end Machine

/-! ### Numbers given out since -/

/-- The same function from before, with a number below both `m` and `n`, or the functions made as
equally many others had been made since. -/
def SameSince (m n a b : Nat) : Prop :=
  (a = b ∧ a < m ∧ b < n) ∨ ∃ i, a = m + i ∧ b = n + i

theorem matched_sameSince (m n : Nat) : Matched (SameSince m n) := by
  intro a b c d first second
  rcases first with first | ⟨i, rfl, rfl⟩ <;> rcases second with second | ⟨j, rfl, rfl⟩ <;> omega

theorem inStep_sameSince (m n : Nat) : InStep (SameSince m n) m n :=
  fun i => .inr ⟨i, rfl, rfl⟩

/-- A value that both sessions know is the same on both sides. -/
theorem Value.Numbered.alike {m n : Nat} {v : Value} (left : v.Numbered m) (right : v.Numbered n) :
    v.Alike (Known (SameSince m n) m n) v := by
  rcases Nat.le_total m n with below | below
  · refine left.mono ?_
    rintro a b ⟨rfl, small⟩
    have small' := Nat.lt_of_lt_of_le small below
    exact ⟨.inl ⟨rfl, small, small'⟩, small, small'⟩
  · refine right.mono ?_
    rintro a b ⟨rfl, small⟩
    have small' := Nat.lt_of_lt_of_le small below
    exact ⟨.inl ⟨rfl, small', small⟩, small', small⟩

theorem joined_of_agreeing {names : String → Prop} {s t : Session} (left : s.Numbered)
    (right : t.Numbered) (agree : ∀ name, names name → s.env.lookup name = t.env.lookup name) :
    Joined (SameSince s.nextId t.nextId) names s t where
  inStep := inStep_sameSince s.nextId t.nextId
  bindings name seen := by
    have same := agree name seen
    cases found : s.env.lookup name with
    | none =>
      rw [← same, found]
      exact .unbound
    | some v =>
      rw [found] at same
      rw [← same]
      exact .bound ((left name v found).alike (right name v same.symm))

/-! ### Agreement -/

/-- The same fatal error, or values that are alike. -/
inductive ResultAlike (pairs : Nat → Nat → Prop) :
    Except FatalError Value → Except FatalError Value → Prop where
  | error (fatal : FatalError) : ResultAlike pairs (.error fatal) (.error fatal)
  | ok {v w : Value} (alike : v.Alike pairs w) : ResultAlike pairs (.ok v) (.ok w)

theorem OutcomesAlike.results {pairs : Nat → Nat → Prop} {names : String → Prop} {s t : Session}
    {left right : Outcome Value} (h : OutcomesAlike pairs names s t Value.Alike left right) :
    Option.Rel (fun x y => ResultAlike pairs x.1 y.1 ∧ Joined pairs names x.2 y.2) left right := by
  cases h with
  | none => exact .none
  | error fatal onward => exact .some ⟨.error fatal, onward.joined⟩
  | ok onward alike => exact .some ⟨.ok (alike.mono fun a b known => known.1), onward.joined⟩

namespace Machine

open Eval

/-- What became of an expression in the sessions `s` and `t`: results that are alike, bindings of
its names that are alike again, and all other bindings as they were on either side. -/
structure Agreeing (source : String) (s t : Session)
    (x y : Except FatalError Value × Session) : Prop where
  results : ResultAlike (SameSince s.nextId t.nextId) x.1 y.1
  mentioned : ∀ name, Mentions source name →
    AlikeBinding (SameSince s.nextId t.nextId) (x.2.env.lookup name) (y.2.env.lookup name)
  left : ∀ name, ¬Mentions source name → x.2.env.lookup name = s.env.lookup name
  right : ∀ name, ¬Mentions source name → y.2.env.lookup name = t.env.lookup name

/-- Two sessions that agree on the names of an expression without `->` give it the same outcome, if
it has one, whatever else they bind, and come out of it in agreement. -/
theorem evaluate_agreeing {source : String}
    (no_lambda : ∀ atoms, Atom.scan source = .ok atoms → .operator .abstract ∉ atoms)
    {s t : Session} (numbered : s.Numbered) (numbered' : t.Numbered)
    (agree : ∀ name, Mentions source name → s.env.lookup name = t.env.lookup name) (depth : Nat) :
    Option.Rel (Agreeing source s t) ((evaluate depth source).run s)
      ((evaluate depth source).run t) := by
  have inView : TextInView (Mentions source) source := fun atoms scanned =>
    ⟨fun name member => ⟨atoms, scanned, member⟩,
      fun member => absurd member (no_lambda atoms scanned)⟩
  have runs : OutcomesAlike _ _ s t Value.Alike _ _ :=
    alike_evaluate (matched_sameSince s.nextId t.nextId) inView
      (joined_of_agreeing numbered numbered' agree) depth
  have results := runs.results
  generalize ran : (evaluate depth source).run s = left,
    ran' : (evaluate depth source).run t = right at results ⊢
  cases results with
  | none => exact .none
  | some both =>
    refine .some ⟨both.1, ?_, ?_, ?_⟩
    · intro name seen
      exact (both.2.bindings name seen).mono fun a b known => known.1
    · exact fun name unseen => lookup_evaluate unseen ran
    · exact fun name unseen => lookup_evaluate unseen ran'

/-- Two sessions that have made three and seven functions number their copies of `cos` apart; the
function that both bind to `x` is the same one. -/
theorem evaluate_agreeing_copies :
    Agreeing "y <- (cos , x)" ⟨⟨[("x", .func (.builtin 0 .sin)), ("z", .int 5)]⟩, 3⟩
      ⟨⟨[("w", .str "a"), ("x", .func (.builtin 0 .sin))]⟩, 7⟩
      (.ok (.tuple (.node (.func (.builtin 3 .cos)) (.node (.func (.builtin 0 .sin)) .empty))),
        ⟨⟨[("x", .func (.builtin 0 .sin)), ("z", .int 5),
          ("y", .tuple (.node (.func (.builtin 3 .cos)) (.node (.func (.builtin 0 .sin)) .empty)))]⟩,
          4⟩)
      (.ok (.tuple (.node (.func (.builtin 7 .cos)) (.node (.func (.builtin 0 .sin)) .empty))),
        ⟨⟨[("w", .str "a"), ("x", .func (.builtin 0 .sin)),
          ("y", .tuple (.node (.func (.builtin 7 .cos)) (.node (.func (.builtin 0 .sin)) .empty)))]⟩,
          8⟩) := by
  have scanned : Atom.scan "y <- (cos , x)" =
      .ok [.identifier "y", .operator .assign, .opening, .identifier "cos", .operator .zip,
        .identifier "x", .closing] := by
    decide +kernel
  have reordered : reorder [Atom.identifier "y", .operator .assign, .opening, .identifier "cos",
      .operator .zip, .identifier "x", .closing] =
      .ok [.operand (.identifier "y"), .operand (.identifier "cos"), .operand (.identifier "x"),
        .operator .zip, .operator .assign] := by
    decide +kernel
  have no_lambda : ∀ atoms, Atom.scan "y <- (cos , x)" = .ok atoms →
      .operator .abstract ∉ atoms := by
    intro atoms found
    rw [scanned] at found
    cases found
    simp
  have agree : ∀ name, Mentions "y <- (cos , x)" name →
      (⟨[("x", .func (.builtin 0 .sin)), ("z", .int 5)]⟩ : Environment Value).lookup name =
        (⟨[("w", .str "a"), ("x", .func (.builtin 0 .sin))]⟩ : Environment Value).lookup name := by
    rintro name ⟨atoms, found, member⟩
    rw [scanned] at found
    cases found
    simp at member
    rcases member with rfl | rfl | rfl <;> rfl
  have sine {n : Nat} (made : 0 < n) : (Value.func (.builtin 0 .sin)).Numbered n :=
    .func (.builtin ⟨rfl, made⟩ .sin)
  have both := evaluate_agreeing no_lambda
    (((numbered_empty 3).assign "x" (sine (by decide))).assign "z" (.int 5))
    (((numbered_empty 7).assign "w" (.str "a")).assign "x" (sine (by decide))) agree 0
  rw [evaluate, evaluateWith_eq _ scanned reordered] at both
  cases both with
  | some agreeing => exact agreeing

end Machine

end ShellExpr
