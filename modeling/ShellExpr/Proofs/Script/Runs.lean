import ShellExpr.Script.Run

/-!
# Runs of scripts

`Runs` says line by line what a run does: a line either has values and the run goes on in the
session after it, or it fails and the run stops there or passes on, in the session that the failed
line left.  Up to its first failed line a run that passes on does what a run that stops does.
-/

namespace ShellExpr

namespace Script

variable {depth : Nat} {keepGoing : Bool} {lines rest : List LogicalLine} {line : LogicalLine}
  {s after last : Session} {reports : List Report} {fatal : FatalError} {values : List Value}

/-- A run of lines from a session on, with its reports and the session after it. -/
inductive Runs (depth : Nat) (keepGoing : Bool) :
    List LogicalLine → Session → List Report → Session → Prop where
  | done (s : Session) : Runs depth keepGoing [] s [] s
  | valued {line : LogicalLine} {rest : List LogicalLine} {s after last : Session}
      {values : List Value} {reports : List Report}
      (ran : (runLine depth line.text).run s = some (.ok values, after))
      (later : Runs depth keepGoing rest after reports last) :
      Runs depth keepGoing (line :: rest) s (⟨line.number, .ok values⟩ :: reports) last
  | stopped {line : LogicalLine} {s after : Session} {fatal : FatalError}
      (ran : (runLine depth line.text).run s = some (.error fatal, after))
      (stops : keepGoing = false) (rest : List LogicalLine) :
      Runs depth keepGoing (line :: rest) s [⟨line.number, .error fatal⟩] after
  | passed {line : LogicalLine} {rest : List LogicalLine} {s after last : Session}
      {fatal : FatalError} {reports : List Report}
      (ran : (runLine depth line.text).run s = some (.error fatal, after))
      (passes : keepGoing = true) (later : Runs depth keepGoing rest after reports last) :
      Runs depth keepGoing (line :: rest) s (⟨line.number, .error fatal⟩ :: reports) last

theorem runs_of_runLines (h : runLines depth keepGoing lines s = some (reports, last)) :
    Runs depth keepGoing lines s reports last := by
  induction lines generalizing s reports with
  | nil =>
    cases h
    exact .done last
  | cons line rest ih =>
    rw [runLines] at h
    split at h
    · contradiction
    · rename_i outcome after ran
      simp only at h
      split at h
      · rename_i stops
        cases h
        cases outcome with
        | ok values => contradiction
        | error fatal => exact .stopped ran (by simpa [Report.failed] using stops) rest
      · rename_i goes_on
        split at h
        · contradiction
        · rename_i others end_ later
          cases h
          cases outcome with
          | ok values => exact .valued ran (ih later)
          | error fatal => exact .passed ran (by simpa [Report.failed] using goes_on) (ih later)

/-- The reports up to the first failed one, that one included. -/
def throughFailure : List Report → List Report
  | [] => []
  | report :: rest => if report.failed then [report] else report :: throughFailure rest

/-- A run that stops reports what the run that goes on reports through its first failed line. -/
theorem Runs.throughFailure (h : Runs depth true lines s reports last) :
    ∃ last, Runs depth false lines s (throughFailure reports) last := by
  induction h with
  | done s => exact ⟨s, .done s⟩
  | valued ran _ ih =>
    obtain ⟨last, later⟩ := ih
    exact ⟨last, .valued ran later⟩
  | stopped ran stops rest => contradiction
  | @passed _ rest _ after _ _ _ ran _ _ _ => exact ⟨after, .stopped ran rfl rest⟩

/-! ### Lines that fail -/

end Script

end ShellExpr
