import TraceCheck.Checker.Call

/-!
# `TraceCheck.Transcript`: scripts over a checker with a bookmark

A script is a list of directives: calls on the checker, and three directives about a
bookmark, which holds a checker to come back to. At the start the bookmark holds the
checker that the script begins with. Running a script gives a transcript, which tells
for each directive what it answered, what it logged and the state it left.
-/

set_option autoImplicit false

namespace TraceCheck

/-- One directive of a script. -/
inductive Directive where
  /-- Call the checker. -/
  | call (k : Call)
  /-- Put the checker into the bookmark. -/
  | save
  /-- Go back to the checker in the bookmark. -/
  | restore
  /-- Ask whether the checker and the bookmark are in the same state, fault included. -/
  | compare

/-- What a transcript tells about one directive. -/
structure Entry where
  /-- The answer: a reply of the checker, or whether two states are the same. -/
  answer : Reply ⊕ Bool
  /-- The state afterwards. -/
  state : State
  /-- The events logged. -/
  events : List Event

namespace Transcript

/-- A checker at work and its bookmark. -/
structure Bookmarked where
  /-- The checker at work. -/
  current : Checker
  /-- The checker to come back to. -/
  bookmark : Checker

/-- Carries out a directive. -/
def Bookmarked.follow (b : Bookmarked) : Directive → Bookmarked × Entry
  | .call k =>
    let outcome := b.current.call k
    ({ b with current := outcome.checker },
      { answer := .inl outcome.reply, state := outcome.checker.state, events := outcome.events })
  | .save =>
    ({ b with bookmark := b.current },
      { answer := .inl .done, state := b.current.state, events := [] })
  | .restore =>
    ({ b with current := b.bookmark },
      { answer := .inl .done, state := b.bookmark.state, events := [] })
  | .compare =>
    (b, { answer := .inr (b.current.state = b.bookmark.state),
             state := b.current.state, events := [] })

/-- Runs a script. -/
def Bookmarked.run (b : Bookmarked) : List Directive → List Entry
  | [] => []
  | d :: ds => (b.follow d).2 :: (b.follow d).1.run ds

/-- Runs a script on a checker, which is also what the bookmark holds at first. -/
def ofScript (c : Checker) (script : List Directive) : List Entry :=
  Bookmarked.run { current := c, bookmark := c } script

/-- A script has an entry for each of its directives. -/
@[simp] theorem length_run (b : Bookmarked) (script : List Directive) :
    (b.run script).length = script.length := by
  induction script generalizing b with
  | nil => rfl
  | cons d ds ih => simp [Bookmarked.run, ih]

end Transcript

end TraceCheck
