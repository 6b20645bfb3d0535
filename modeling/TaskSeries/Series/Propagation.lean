import TaskSeries.Fault
import TaskSeries.Task.Basic

/-!
Carrying a change of one occurrence on to the later ones of its series. The user is asked once; a no
changes the addressed task alone.
-/

namespace TaskSeries

open TaskSeries.Calendar

/-- What comes of putting a question. -/
inductive Answer
  | yes
  | no
  /-- The question could not be put. -/
  | unavailable
deriving DecidableEq, Repr

/-- Who answers questions. -/
inductive Respondent
  /-- Answers without being asked, always the same. -/
  | fixed (answer : Bool)
  /-- Gives the answers in order and says no after the last one. -/
  | script (answers : List Answer)
deriving DecidableEq, Repr

namespace Respondent

/-- The next answer, and the respondent afterwards. -/
def answer : Respondent → Answer × Respondent
  | fixed true => (.yes, fixed true)
  | fixed false => (.no, fixed false)
  | script [] => (.no, script [])
  | script (a :: rest) => (a, script rest)

/-- Whether answering takes putting the question. -/
def mustBeAsked : Respondent → Bool
  | fixed _ => false
  | script _ => true

end Respondent

/-- How far a proposal has come. -/
inductive ProposalState
  | idle | awaitingConfirmation | applied | rejected
deriving DecidableEq, Repr

namespace ProposalState

/-- The name of a state. -/
def name : ProposalState → String
  | idle => "idle"
  | awaitingConfirmation => "awaiting-confirmation"
  | applied => "applied"
  | rejected => "rejected"

/-- The name of a state in records. -/
def key : ProposalState → String
  | awaitingConfirmation => "awaiting_confirmation"
  | state => state.name

/-- The proposal has ended. -/
def isFinal : ProposalState → Bool
  | applied | rejected => true
  | idle | awaitingConfirmation => false

end ProposalState

/-- The end of a proposal, and the tasks as they are after it, the addressed one first. -/
structure Outcome where
  state : ProposalState
  changed : List Task
deriving DecidableEq

/-- Whether a task is a later pending occurrence of the series of another. -/
def Task.isLaterSibling (on : Task) (t : Task) : Bool :=
  match on.parent, on.mask with
  | some parent, some mask =>
    t.id != on.id && t.parent == some parent && t.status == .pending && t.mask.any (mask < ·)
  | _, _ => false

/-- The later pending occurrences of a task's series among the candidates. -/
def Task.laterSiblings (on : Task) (candidates : List Task) : List Task :=
  candidates.filter on.isLaterSibling

/-- Takes proposals one after another. -/
structure Coordinator where
  state : ProposalState
  respondent : Respondent
  /-- The questions that were put, in order. -/
  asked : List String
deriving DecidableEq

namespace Coordinator

/-- A coordinator before its first proposal. -/
def start (respondent : Respondent) : Coordinator where
  state := .idle
  respondent := respondent
  asked := []

/-- The question whether later occurrences change too. -/
def question (m : Mutation) : String :=
  "This is a recurring task. Do you want to " ++ m.verb
    ++ " all pending recurrences of this same task?"

/-- The state in which a proposal begins: an ended one makes way. -/
def reset (c : Coordinator) : Coordinator :=
  if c.state.isFinal then { c with state := .idle } else c

/-- Puts the question and waits. -/
def ask (c : Coordinator) (m : Mutation) : Answer × Coordinator :=
  let (answer, respondent) := c.respondent.answer
  (answer,
    { state := .awaitingConfirmation
      respondent := respondent
      asked := if c.respondent.mustBeAsked then c.asked ++ [question m] else c.asked })

/-- Ends a proposal. -/
def finish (c : Coordinator) (state : ProposalState) (changed : List Task) :
    Except Fault Outcome × Coordinator :=
  (.ok ⟨state, changed⟩, { c with state := state })

/-- Applies a mutation to a task, and to the later pending occurrences of its series if there are any
and the answer is yes. -/
def propose (c : Coordinator) (m : Mutation) (on : Task) (candidates : List Task) (now : Instant) :
    Except Fault Outcome × Coordinator :=
  let c := c.reset
  let target := m.apply now on
  match on.laterSiblings candidates with
  | [] => c.finish .applied [target]
  | later =>
    match c.ask m with
    | (.yes, c) => c.finish .applied (target :: later.map (m.apply now))
    | (.no, c) => c.finish .rejected [target]
    | (.unavailable, c) => (.error .confirmation, { c with state := .idle })

end Coordinator

end TaskSeries
