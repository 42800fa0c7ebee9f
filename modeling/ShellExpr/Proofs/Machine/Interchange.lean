import ShellExpr.Proofs.Machine.Agreement

/-!
# Evaluations in another order

Functions are numbered in the order in which they are made.  Where evaluations keep the bindings,
their order matters for these numbers and for which fatal error comes first, and for nothing else.

`SameValue s` compares two outcomes from `s` up to that: both are values, the same one but for the
numbers of functions made since, or neither is a value.  It is transitive, a further evaluation may
go on from either side of it, and the two operands of an application may be evaluated in either
order.
-/

namespace ShellExpr

open Machine Eval

variable {pairs others : Nat → Nat → Prop} {first m n : Nat} {s : Session}

/-! ### Renumbering -/

/-- The pairs leave the numbers below `first` as they are. -/
structure Renumbers (first : Nat) (pairs : Nat → Nat → Prop) : Prop where
  matched : Matched pairs
  keeps : ∀ number, number < first → pairs number number

theorem Renumbers.of_le {later : Nat} (h : Renumbers later pairs) (below : first ≤ later) :
    Renumbers first pairs :=
  ⟨h.matched, fun number small => h.keeps number (Nat.lt_of_lt_of_le small below)⟩

theorem Renumbers.comp (h : Renumbers first pairs) (h' : Renumbers first others) :
    Renumbers first (Relation.Comp pairs others) :=
  ⟨h.matched.comp h'.matched, fun number small => ⟨number, h.keeps number small,
    h'.keeps number small⟩⟩

theorem renumbers_eq (first : Nat) : Renumbers first Eq :=
  ⟨matched_eq, fun _ _ => rfl⟩

theorem renumbers_sameSince (left : first ≤ m) (right : first ≤ n) :
    Renumbers first (SameSince m n) :=
  ⟨matched_sameSince m n, fun _ small =>
    .inl ⟨rfl, Nat.lt_of_lt_of_le small left, Nat.lt_of_lt_of_le small right⟩⟩

/-- The pairs given out so far, and those of the functions to come in step. -/
def Continued (pairs : Nat → Nat → Prop) (m n a b : Nat) : Prop :=
  Known pairs m n a b ∨ ∃ i, a = m + i ∧ b = n + i

theorem renumbers_continued (h : Renumbers first pairs) (left : first ≤ m) (right : first ≤ n) :
    Renumbers first (Continued pairs m n) where
  matched := by
    rintro a b c d (⟨known, small, small'⟩ | ⟨i, rfl, rfl⟩) (⟨known', _, _⟩ | ⟨j, rfl, rfl⟩)
    · exact h.matched a b c d known known'
    all_goals omega
  keeps number small :=
    .inl ⟨h.keeps number small, Nat.lt_of_lt_of_le small left, Nat.lt_of_lt_of_le small right⟩

theorem inStep_continued (pairs : Nat → Nat → Prop) (m n : Nat) :
    InStep (Continued pairs m n) m n :=
  fun i => .inr ⟨i, rfl, rfl⟩

theorem known_continued {a b : Nat} (h : Known pairs m n a b) :
    Known (Continued pairs m n) m n a b :=
  ⟨.inl h, h.2⟩

/-- From `first` on, `k` functions are made before `l` others on the left, and after them on the
right. -/
def Crossed (first k l a b : Nat) : Prop :=
  (a = b ∧ (a < first ∨ first + k + l ≤ a)) ∨ (first ≤ a ∧ a < first + k ∧ b = a + l) ∨
    (first + k ≤ a ∧ a < first + k + l ∧ a = b + k)

theorem renumbers_crossed (first k l : Nat) : Renumbers first (Crossed first k l) where
  matched := by
    unfold Matched Crossed
    omega
  keeps _ small := .inl ⟨rfl, .inl small⟩

theorem inStep_crossed (first k l : Nat) :
    InStep (Crossed first k l) (first + k + l) (first + l + k) := by
  unfold InStep Crossed
  omega

/-- The `k` functions made first on the left. -/
theorem crossed_before {k l a b : Nat}
    (h : Known (SameSince first (first + l)) (first + k) (first + l + k) a b) :
    Known (Crossed first k l) (first + k + l) (first + l + k) a b := by
  obtain ⟨⟨rfl, small, _⟩ | ⟨i, rfl, rfl⟩, left, right⟩ := h <;> unfold Known Crossed <;> omega

/-- The `l` functions made first on the right. -/
theorem crossed_behind {k l a b : Nat}
    (h : Known (SameSince (first + k) first) (first + k + l) (first + l) a b) :
    Known (Crossed first k l) (first + k + l) (first + l + k) a b := by
  obtain ⟨⟨rfl, _, small⟩ | ⟨i, rfl, rfl⟩, left, right⟩ := h <;> unfold Known Crossed <;> omega

/-! ### Later sessions -/

theorem Session.Numbered.renumbered (h : s.Numbered) (renumbers : Renumbers s.nextId pairs)
    (left : s.nextId ≤ m) (right : s.nextId ≤ n) (inStep : InStep pairs m n) :
    Joined pairs (fun _ => True) { s with nextId := m } { s with nextId := n } where
  inStep := inStep
  bindings name _ := by
    change AlikeBinding (Known pairs m n) (s.env.lookup name) (s.env.lookup name)
    cases found : s.env.lookup name with
    | none => exact .unbound
    | some v =>
      refine .bound ((h name v found).mono ?_)
      rintro a b ⟨rfl, small⟩
      exact ⟨renumbers.keeps a small, Nat.lt_of_lt_of_le small left,
        Nat.lt_of_lt_of_le small right⟩

/-! ### Outcomes that are values -/

/-- The evaluation came to a result. -/
def Outcome.IsOk {α : Type} (outcome : Outcome α) : Prop :=
  ∃ a after, outcome = some (.ok a, after)

theorem isOk_bind {α β : Type} {x : Eval α} {f : α → Eval β} :
    Outcome.IsOk ((x >>= f).run s) ↔
      ∃ a after, x.run s = some (.ok a, after) ∧ Outcome.IsOk ((f a).run after) := by
  rw [run_bind]
  constructor
  · rintro ⟨b, last, ran⟩
    split at ran
    · contradiction
    · cases ran
    · rename_i a after found
      exact ⟨a, after, found, b, last, ran⟩
  · rintro ⟨a, after, found, b, last, ran⟩
    exact ⟨b, last, by rw [found]; exact ran⟩

/-- Outcomes of evaluations from `s`: both are values, the same but for the numbers of functions
made since, with the bindings of `s` behind them, or neither is a value. -/
inductive SameValue (s : Session) : Outcome Value → Outcome Value → Prop where
  | ok {pairs : Nat → Nat → Prop} {v w : Value} {m n : Nat} (left : s.nextId ≤ m)
      (right : s.nextId ≤ n) (renumbers : Renumbers s.nextId pairs)
      (alike : v.Alike (Known pairs m n) w) :
      SameValue s (some (.ok v, { s with nextId := m })) (some (.ok w, { s with nextId := n }))
  | neither {x y : Outcome Value} (left : ¬x.IsOk) (right : ¬y.IsOk) : SameValue s x y

theorem SameValue.trans {x y z : Outcome Value} (h : SameValue s x y) (h' : SameValue s y z) :
    SameValue s x z := by
  cases h with
  | ok left right renumbers alike =>
    cases h' with
    | ok _ right' renumbers' alike' =>
      refine .ok left right' (renumbers.comp renumbers') ((alike.comp alike').mono ?_)
      rintro a c ⟨b, ⟨pair, small, _⟩, pair', _, small'⟩
      exact ⟨⟨b, pair, pair'⟩, small, small'⟩
    | neither left' _ => exact absurd ⟨_, _, rfl⟩ left'
  | neither left right =>
    cases h' with
    | ok => exact absurd ⟨_, _, rfl⟩ right
    | neither _ right' => exact .neither left right'

theorem SameValue.isOk_iff {x y : Outcome Value} (h : SameValue s x y) : x.IsOk ↔ y.IsOk := by
  cases h with
  | ok => exact ⟨fun _ => ⟨_, _, rfl⟩, fun _ => ⟨_, _, rfl⟩⟩
  | neither left right => exact ⟨fun ok => absurd ok left, fun ok => absurd ok right⟩

theorem SameValue.exists_renumbering {v w : Value} {after after' : Session}
    (h : SameValue s (some (.ok v, after)) (some (.ok w, after'))) :
    ∃ pairs, Renumbers s.nextId pairs ∧ v.Alike pairs w := by
  cases h with
  | ok left right renumbers alike => exact ⟨_, renumbers, alike.mono fun _ _ known => known.1⟩
  | neither left _ => exact absurd ⟨v, after, rfl⟩ left

/-- Functions made before `m` count as there before. -/
theorem SameValue.of_later {x y : Outcome Value} (h : SameValue { s with nextId := m } x y)
    (later : s.nextId ≤ m) : SameValue s x y := by
  cases h with
  | ok left right renumbers alike =>
    exact .ok (Nat.le_trans later left) (Nat.le_trans later right) (renumbers.of_le later) alike
  | neither left right => exact .neither left right

/-! ### Evaluations that keep the bindings -/

abbrev Keeps {α : Type} (x : Eval α) : Prop :=
  Moves (· = ·) (fun _ => True) x

theorem keeps_of_moves {α : Type} {P : α → Prop} {x : Eval α} (h : Moves (· = ·) P x) : Keeps x :=
  fun s outcome after ran => ⟨(h s outcome after ran).1, fun _ _ => trivial⟩

theorem keeps_pure {α : Type} (a : α) : Keeps (pure a : Eval α) :=
  moves_pure (fun _ => rfl) trivial

theorem Keeps.bind {α β : Type} {x : Eval α} {f : α → Eval β} (hx : Keeps x)
    (hf : ∀ a, Keeps (f a)) : Keeps (x >>= f) :=
  Moves.bind (R := (· = ·)) (fun _ _ _ => Eq.trans) hx fun a _ => hf a

/-- Where nothing is assigned, the bindings may be required to stay. -/
theorem allows_eq {items : List (Postfix Atom)} (no_assign : .operator .assign ∉ items) :
    Allows items (· = ·) :=
  ⟨fun _ => rfl, fun _ _ _ => Eq.trans, fun assigns => absurd assigns no_assign⟩

theorem keeps_apply (call : Call) (head argument : Value) : Keeps (apply call head argument) :=
  moves_apply (allows_eq List.not_mem_nil) call head argument

theorem sameValue_of_runsAlike {x y : Eval Value} (keeps : Keeps x) (keeps' : Keeps y)
    (renumbers : Renumbers s.nextId pairs) (left : s.nextId ≤ m) (right : s.nextId ≤ n)
    (runs : RunsAlike pairs (fun _ => True) Value.Alike x y { s with nextId := m }
      { s with nextId := n }) :
    SameValue s (x.run { s with nextId := m }) (y.run { s with nextId := n }) := by
  unfold RunsAlike at runs
  generalize ran : x.run { s with nextId := m } = outcome,
    ran' : y.run { s with nextId := n } = outcome' at runs ⊢
  cases runs with
  | none => exact .neither nofun nofun
  | error fatal => exact .neither nofun nofun
  | @ok v w after after' onward alike =>
    obtain ⟨env, m'⟩ := after
    obtain ⟨env', n'⟩ := after'
    obtain rfl : s.env = env := (keeps _ _ _ ran).1
    obtain rfl : s.env = env' := (keeps' _ _ _ ran').1
    exact .ok (Nat.le_trans left onward.left) (Nat.le_trans right onward.right) renumbers alike

/-- An evaluation that goes on alike from two values is no way to tell outcomes apart. -/
theorem SameValue.bind {x y : Eval Value} {z : Value → Eval Value}
    (h : SameValue s (x.run s) (y.run s)) (keeps : ∀ v, Keeps (z v))
    (alike : ∀ {pairs : Nat → Nat → Prop} {m n : Nat} {v w : Value}, Renumbers s.nextId pairs →
      s.nextId ≤ m → s.nextId ≤ n → InStep pairs m n → v.Alike (Known pairs m n) w →
      RunsAlike pairs (fun _ => True) Value.Alike (z v) (z w) { s with nextId := m }
        { s with nextId := n }) :
    SameValue s ((x >>= z).run s) ((y >>= z).run s) := by
  generalize ran : x.run s = outcome, ran' : y.run s = outcome' at h
  cases h with
  | @ok pairs v w m n left right renumbers same =>
    rw [run_bind, run_bind, ran, ran']
    have renumbers := renumbers_continued renumbers left right
    exact sameValue_of_runsAlike (keeps v) (keeps w) renumbers left right
      (alike renumbers left right (inStep_continued pairs m n)
        (same.mono fun _ _ => known_continued))
  | neither left right =>
    refine .neither ?_ ?_
    · rw [isOk_bind, ran]
      rintro ⟨v, after, rfl, _⟩
      exact left ⟨v, after, rfl⟩
    · rw [isOk_bind, ran']
      rintro ⟨w, after, rfl, _⟩
      exact right ⟨w, after, rfl⟩

/-- The same evaluation in front of two others. -/
theorem SameValue.after {α : Type} (x : Eval α) {f g : α → Eval Value}
    (h : ∀ a after, x.run s = some (.ok a, after) →
      SameValue s ((f a).run after) ((g a).run after)) :
    SameValue s ((x >>= f).run s) ((x >>= g).run s) := by
  rw [run_bind, run_bind]
  generalize ran : x.run s = outcome at h
  rcases outcome with _ | ⟨fatal | a, after⟩
  · exact .neither nofun nofun
  · exact .neither nofun nofun
  · exact h a after rfl

/-- From `s` with however many more functions made, the evaluation keeps the bindings and has
outcomes that are alike. -/
structure Steady (s : Session) (x : Eval Value) : Prop where
  keeps : Keeps x
  alike : ∀ {pairs : Nat → Nat → Prop} {m n : Nat}, Renumbers s.nextId pairs → s.nextId ≤ m →
    s.nextId ≤ n → InStep pairs m n → RunsAlike pairs (fun _ => True) Value.Alike x x
      { s with nextId := m } { s with nextId := n }

variable {x y : Eval Value}

theorem Steady.sameValue (h : Steady s x) : SameValue s (x.run s) (x.run s) :=
  have renumbers := renumbers_eq s.nextId
  have start := Nat.le_refl s.nextId
  sameValue_of_runsAlike h.keeps h.keeps renumbers start start
    (h.alike renumbers start start fun _ => rfl)

/-- A result from the number `m` on is had from `n` on as well, with as many functions made. -/
theorem Steady.shift (h : Steady s x) (left : s.nextId ≤ m) (right : s.nextId ≤ n) {v : Value}
    {after : Session} (ran : x.run { s with nextId := m } = some (.ok v, after)) :
    ∃ made w, after = { s with nextId := m + made } ∧
      x.run { s with nextId := n } = some (.ok w, { s with nextId := n + made }) ∧
      v.Alike (Known (SameSince m n) (m + made) (n + made)) w := by
  have runs := h.alike (renumbers_sameSince left right) left right (inStep_sameSince m n)
  unfold RunsAlike at runs
  generalize ran' : x.run { s with nextId := n } = outcome' at runs
  rw [ran] at runs
  cases runs with
  | @ok _ w _ after' onward alike =>
    obtain ⟨env, m'⟩ := after
    obtain ⟨env', n'⟩ := after'
    obtain rfl : s.env = env := (h.keeps _ _ _ ran).1
    obtain rfl : s.env = env' := (h.keeps _ _ _ ran').1
    obtain ⟨made, rfl⟩ := Nat.exists_eq_add_of_le (onward.left : m ≤ m')
    -- The next functions are a pair, so equally many were made on both sides.
    have same : SameSince m n (m + made) n' := onward.joined.inStep 0
    have later : n ≤ n' := onward.right
    obtain rfl : n + made = n' := by
      rcases same with ⟨_, _, _⟩ | ⟨i, _, _⟩ <;> omega
    exact ⟨made, w, rfl, rfl, alike⟩

theorem Steady.isOk_both (hx : Steady s x) (hy : Steady s y) {f : Value → Value → Eval Value}
    (h : Outcome.IsOk ((do let v ← x; let u ← y; f v u : Eval Value).run s)) :
    Outcome.IsOk (x.run s) ∧ Outcome.IsOk (y.run s) := by
  have start := Nat.le_refl s.nextId
  obtain ⟨v, after, ran, rest⟩ := isOk_bind.1 h
  obtain ⟨u, last, ran', _⟩ := isOk_bind.1 rest
  refine ⟨⟨v, after, ran⟩, ?_⟩
  obtain ⟨made, _, rfl, _⟩ := hx.shift start start ran
  obtain ⟨_, w, _, ran_first, _⟩ := hy.shift (Nat.le_add_right _ made) start ran'
  exact ⟨w, _, ran_first⟩

/-- The operands of an application in either order. -/
theorem Steady.swap {call : Call} (calls : ∀ {pairs}, Matched pairs → CallsAlike pairs call)
    (numbered : s.Numbered) (hx : Steady s x) (hy : Steady s y) :
    SameValue s ((do let v ← x; let u ← y; apply call u v : Eval Value).run s)
      ((do let u ← y; let v ← x; apply call u v : Eval Value).run s) := by
  by_cases both : Outcome.IsOk (x.run s) ∧ Outcome.IsOk (y.run s)
  · obtain ⟨⟨v, after, ran_x⟩, ⟨u₀, after', ran_y₀⟩⟩ := both
    have start := Nat.le_refl s.nextId
    obtain ⟨k, _, rfl, _, _⟩ := hx.shift start start ran_x
    have behind := Nat.le_add_right s.nextId k
    obtain ⟨made, u, _, ran_y, _⟩ := hy.shift start behind ran_y₀
    obtain ⟨l, u', same, ran_y', alike_u⟩ := hy.shift behind start ran_y
    obtain rfl : made = l := Nat.add_left_cancel (congrArg Session.nextId same)
    have behind' := Nat.le_add_right s.nextId made
    obtain ⟨k', v', same', ran_x', alike_v⟩ := hx.shift start behind' ran_x
    obtain rfl : k = k' := Nat.add_left_cancel (congrArg Session.nextId same')
    have left : ((do let v ← x; let u ← y; apply call u v : Eval Value).run s) =
        (apply call u v).run { s with nextId := s.nextId + k + made } := by
      rw [run_bind, ran_x]
      dsimp only
      rw [run_bind, ran_y]
    have right : ((do let u ← y; let v ← x; apply call u v : Eval Value).run s) =
        (apply call u' v').run { s with nextId := s.nextId + made + k } := by
      rw [run_bind, ran_y']
      dsimp only
      rw [run_bind, ran_x']
    rw [left, right]
    have renumbers := renumbers_crossed s.nextId k made
    have later : s.nextId ≤ s.nextId + k + made := by omega
    have later' : s.nextId ≤ s.nextId + made + k := by omega
    have joined := numbered.renumbered renumbers later later' (inStep_crossed s.nextId k made)
    exact sameValue_of_runsAlike (keeps_apply call u v)
      (keeps_apply call u' v') renumbers later later'
      (alike_apply (calls renumbers.matched) joined (alike_u.mono fun _ _ => crossed_behind)
        (alike_v.mono fun _ _ => crossed_before))
  · exact .neither (fun ok => both (hx.isOk_both hy ok))
      (fun ok => both (hy.isOk_both hx ok).symm)

end ShellExpr
