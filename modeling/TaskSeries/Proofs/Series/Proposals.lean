import Mathlib.Tactic.Lemma
import TaskSeries.Series.Propagation
import TaskSeries.Task.Draw

/-!
# Proposals one after another

What comes of a proposal depends on the answers that are left and on nothing else: a coordinator that took
proposals before does the same as a new one with these answers (`Coordinator.propose_eq`). So a row of
proposals uses the answers up in order, one for each question, and neither a no nor a question that could
not be put is carried on to the proposals behind it (`Coordinator.proposals_apart`).
-/

namespace TaskSeries

open TaskSeries.Calendar

/-! ## Later occurrences -/

/-- A task is a later pending occurrence of the series that another one belongs to. -/
structure Task.IsLaterThan (t on : Task) : Prop where
  other : t.id ≠ on.id
  series : ∃ parent, on.parent = some parent ∧ t.parent = some parent
  pending : t.status = .pending
  place : ∃ m n, on.mask = some m ∧ t.mask = some n ∧ m < n

/-- The test that picks the later occurrences out of a list is right. -/
lemma Task.isLaterSibling_iff {on t : Task} : on.isLaterSibling t = true ↔ t.IsLaterThan on := by
  unfold isLaterSibling
  constructor
  · intro h
    split at h
    · rename_i parent place hparent hplace
      simp only [Bool.and_eq_true, bne_iff_ne, beq_iff_eq, Option.any_eq_true, decide_eq_true_eq] at h
      obtain ⟨⟨⟨hother, hseries⟩, hpending⟩, n, hn, hlt⟩ := h
      exact ⟨hother, ⟨parent, hparent, hseries⟩, hpending, ⟨place, n, hplace, hn, hlt⟩⟩
    · exact absurd h Bool.false_ne_true
  · rintro ⟨hother, ⟨parent, hparent, hseries⟩, hpending, ⟨m, n, hm, hn, hlt⟩⟩
    rw [hparent, hm]
    simp [hother, hseries, hpending, hn, hlt]

/-! ## One proposal -/

/-- The questions that a respondent is asked for one answer. -/
def Respondent.questions (q : Respondent) (m : Mutation) : List String :=
  if q.mustBeAsked then [Coordinator.question m] else []

namespace Coordinator

section
variable {q next : Respondent} {m : Mutation} {on : Task} {candidates : List Task} {now : Instant}

/-- Without later occurrences the target alone is changed, and nothing is asked. -/
lemma propose_of_alone (h : on.laterSiblings candidates = []) :
    (start q).propose m on candidates now =
      (.ok ⟨.applied, [m.apply now on]⟩, ⟨.applied, q, []⟩) := by
  unfold propose
  dsimp only
  rw [h]
  rfl

/-- With later occurrences the answer decides. -/
lemma propose_of_later {answer : Answer} (h : on.laterSiblings candidates ≠ [])
    (hanswer : q.answer = (answer, next)) :
    (start q).propose m on candidates now =
      match answer with
      | .yes => (.ok ⟨.applied, (on :: on.laterSiblings candidates).map (m.apply now)⟩,
          ⟨.applied, next, q.questions m⟩)
      | .no => (.ok ⟨.rejected, [m.apply now on]⟩, ⟨.rejected, next, q.questions m⟩)
      | .unavailable => (.error .confirmation, ⟨.idle, next, q.questions m⟩) := by
  have hask : (start q).ask m = (answer, ⟨.awaitingConfirmation, next, q.questions m⟩) := by
    unfold ask Respondent.questions
    rw [show (start q).respondent = q from rfl, hanswer]
    rfl
  unfold propose
  rw [show (start q).reset = start q from rfl]
  dsimp only
  split
  · rename_i hnil
    exact absurd hnil h
  · rw [hask]
    cases answer <;> rfl

/-- A coordinator does what a new one does with the same respondent. The state that it is in does not
matter, and the questions are put behind those that were put before. -/
lemma propose_eq (c : Coordinator) (m : Mutation) (on : Task) (candidates : List Task) (now : Instant) :
    c.propose m on candidates now =
      (((start c.respondent).propose m on candidates now).1,
        { ((start c.respondent).propose m on candidates now).2 with
          asked := c.asked ++ ((start c.respondent).propose m on candidates now).2.asked }) := by
  have hreset : c.reset.respondent = c.respondent ∧ c.reset.asked = c.asked := by
    unfold reset
    split <;> exact ⟨rfl, rfl⟩
  by_cases h : on.laterSiblings candidates = []
  · rw [propose_of_alone h]
    unfold propose finish
    dsimp only
    rw [h, List.append_nil]
    dsimp only
    rw [hreset.1, hreset.2]
  · cases hanswer : c.respondent.answer with
    | mk answer next =>
      have hask : c.reset.ask m =
          (answer, ⟨.awaitingConfirmation, next, c.asked ++ c.respondent.questions m⟩) := by
        unfold ask Respondent.questions
        rw [hreset.1, hreset.2, hanswer]
        dsimp only
        split <;> simp
      rw [propose_of_later h hanswer]
      unfold propose
      dsimp only
      split
      · rename_i hnil
        exact absurd hnil h
      · rw [hask]
        cases answer <;> rfl

end

end Coordinator

/-! ## Proposals in a row -/

/-- A proposal to a coordinator. -/
structure Proposal where
  mutation : Mutation
  target : Task
  candidates : List Task
  now : Instant

namespace Proposal

/-- The later pending occurrences among the candidates of the series that the task belongs to. -/
def later (p : Proposal) : List Task := p.target.laterSiblings p.candidates

lemma later_sublist (p : Proposal) : p.later.Sublist p.candidates := List.filter_sublist

/-- The later occurrences are the candidates that are. -/
lemma mem_later_iff {p : Proposal} {t : Task} :
    t ∈ p.later ↔ t ∈ p.candidates ∧ t.IsLaterThan p.target := by
  unfold later Task.laterSiblings
  rw [List.mem_filter, Task.isLaterSibling_iff]

/-- The question of a proposal, if there is one. -/
def questions (p : Proposal) : List String :=
  if p.later = [] then [] else [Coordinator.question p.mutation]

/-- What comes of a proposal that has nothing to ask, or of the answer to its question. -/
def outcome (p : Proposal) (answer : Answer) : Except Fault Outcome :=
  if p.later = [] then .ok ⟨.applied, [p.mutation.apply p.now p.target]⟩
  else
    match answer with
    | .yes => .ok ⟨.applied, (p.target :: p.later).map (p.mutation.apply p.now)⟩
    | .no => .ok ⟨.rejected, [p.mutation.apply p.now p.target]⟩
    | .unavailable => .error .confirmation

/-- What comes of proposals in a row, each question taking the next answer and a no behind the last. -/
def outcomes : List Proposal → List Answer → List (Except Fault Outcome)
  | [], _ => []
  | p :: rest, answers =>
    p.outcome (answers.headD .no) :: outcomes rest (answers.drop p.questions.length)

/-- Proposals behind others take the answers that these have left. -/
lemma outcomes_append (ps qs : List Proposal) (answers : List Answer) :
    outcomes (ps ++ qs) answers =
      outcomes ps answers ++ outcomes qs (answers.drop (ps.flatMap questions).length) := by
  induction ps generalizing answers with
  | nil => rfl
  | cons p ps ih =>
    rw [List.cons_append, outcomes, outcomes, ih, List.drop_drop, List.flatMap_cons,
      List.length_append, List.cons_append]

/-- Answers behind those that are used do not matter. -/
lemma outcomes_take {ps : List Proposal} {k : Nat} (h : (ps.flatMap questions).length ≤ k)
    (answers : List Answer) : outcomes ps (answers.take k) = outcomes ps answers := by
  induction ps generalizing answers k with
  | nil => rfl
  | cons p ps ih =>
    rw [List.flatMap_cons, List.length_append] at h
    have hrest : (ps.flatMap questions).length ≤ k - p.questions.length := by omega
    rw [outcomes, outcomes, List.drop_take, ih hrest]
    by_cases hlater : p.later = []
    · unfold outcome
      rw [if_pos hlater, if_pos hlater]
    · -- the first answer is among those that are kept
      have hone : p.questions.length = 1 := by
        unfold questions
        rw [if_neg hlater, List.length_singleton]
      obtain ⟨n, rfl⟩ := Nat.exists_eq_add_of_le' (show 1 ≤ k by omega)
      cases answers <;> rfl

/-- A proposal fails where its question cannot be put, and ends as applied or rejected otherwise. -/
lemma outcome_cases (p : Proposal) (answer : Answer) :
    (∃ o, p.outcome answer = .ok o ∧ (o.state = .applied ∨ o.state = .rejected)) ∨
      p.outcome answer = .error .confirmation ∧ p.later ≠ [] ∧ answer = .unavailable := by
  unfold outcome
  by_cases hlater : p.later = []
  · rw [if_pos hlater]
    exact .inl ⟨_, rfl, .inl rfl⟩
  · rw [if_neg hlater]
    cases answer with
    | yes => exact .inl ⟨_, rfl, .inl rfl⟩
    | no => exact .inl ⟨_, rfl, .inr rfl⟩
    | unavailable => exact .inr ⟨rfl, hlater, rfl⟩

end Proposal

namespace Coordinator

/-- Takes a proposal. -/
def take (c : Coordinator) (p : Proposal) : Except Fault Outcome × Coordinator :=
  c.propose p.mutation p.target p.candidates p.now

/-- Takes proposals one after another. -/
def takeAll : Coordinator → List Proposal → List (Except Fault Outcome) × Coordinator
  | c, [] => ([], c)
  | c, p :: rest => ((c.take p).1 :: ((c.take p).2.takeAll rest).1, ((c.take p).2.takeAll rest).2)

/-- The state in which an outcome leaves a coordinator. -/
def stateAfter : Except Fault Outcome → ProposalState
  | .ok o => o.state
  | .error _ => .idle

/-- What a proposal does to a coordinator with answers. -/
lemma take_eq {c : Coordinator} {answers : List Answer} (h : c.respondent = .script answers)
    (p : Proposal) :
    c.take p = (p.outcome (answers.headD .no),
      ⟨stateAfter (p.outcome (answers.headD .no)), .script (answers.drop p.questions.length),
        c.asked ++ p.questions⟩) := by
  unfold take
  rw [propose_eq, h]
  unfold Proposal.outcome Proposal.questions
  by_cases hlater : p.later = []
  · rw [if_pos hlater, if_pos hlater, propose_of_alone hlater]
    rfl
  · rw [if_neg hlater, if_neg hlater]
    cases answers with
    | nil =>
      have hno : (Respondent.script []).answer = (.no, .script []) := rfl
      rw [propose_of_later hlater hno]
      rfl
    | cons answer rest =>
      have hfirst : (Respondent.script (answer :: rest)).answer = (answer, .script rest) := rfl
      rw [propose_of_later hlater hfirst]
      cases answer <;> rfl

/-- A row of proposals takes the answers in order. -/
lemma takeAll_eq {c : Coordinator} {answers : List Answer} (h : c.respondent = .script answers)
    (ps : List Proposal) :
    (c.takeAll ps).1 = Proposal.outcomes ps answers ∧
      (c.takeAll ps).2.respondent = .script (answers.drop (ps.flatMap Proposal.questions).length) ∧
      (c.takeAll ps).2.asked = c.asked ++ ps.flatMap Proposal.questions := by
  induction ps generalizing c answers with
  | nil => exact ⟨rfl, h, (List.append_nil _).symm⟩
  | cons p ps ih =>
    have htake := take_eq h p
    have hrespondent : (c.take p).2.respondent = .script (answers.drop p.questions.length) := by
      rw [htake]
    obtain ⟨houtcomes, hlast, hquestions⟩ := ih hrespondent
    rw [takeAll, houtcomes, hlast, hquestions, htake, List.drop_drop, List.flatMap_cons,
      List.length_append, List.append_assoc]
    exact ⟨rfl, rfl, rfl⟩

/-- The coordinator that was given answers and has taken proposals. -/
def reached (answers : List Answer) (before : List Proposal) : Coordinator :=
  ((start (.script answers)).takeAll before).2

/-- The answers that proposals have not used. -/
def unused (answers : List Answer) (before : List Proposal) : List Answer :=
  answers.drop (before.flatMap Proposal.questions).length

lemma respondent_reached (answers : List Answer) (before : List Proposal) :
    (reached answers before).respondent = .script (unused answers before) :=
  (takeAll_eq rfl before).2.1

/-- What comes of a proposal behind others, and how it leaves the coordinator. -/
lemma take_reached (answers : List Answer) (before : List Proposal) (p : Proposal) :
    (reached answers before).take p = (p.outcome ((unused answers before).headD .no),
      ⟨stateAfter (p.outcome ((unused answers before).headD .no)),
        .script ((unused answers before).drop p.questions.length),
        (reached answers before).asked ++ p.questions⟩) :=
  take_eq (respondent_reached answers before) p

lemma unused_concat (answers : List Answer) (before : List Proposal) (p : Proposal) :
    unused answers (before ++ [p]) = (unused answers before).drop p.questions.length := by
  unfold unused
  rw [List.drop_drop, List.flatMap_append, List.length_append, List.flatMap_singleton]

/-- A proposal is taken as if the proposals before it had only used their answers, and the proposals
behind it as if it had only used its own. -/
structure Apart (answers : List Answer) (before : List Proposal) (p : Proposal)
    (behind : List Proposal) : Prop where
  /-- What comes of it is what comes of it with a new coordinator that has the answers that are left. -/
  outcome : ((reached answers before).take p).1 =
    ((start (.script (unused answers before))).take p).1
  outcomes : ((start (.script answers)).takeAll (before ++ p :: behind)).1 =
    ((start (.script answers)).takeAll before).1 ++
      ((start (.script (unused answers before))).take p).1 ::
        ((start (.script (unused answers (before ++ [p])))).takeAll behind).1
  /-- Its later occurrences are the candidates of the same series that are pending at greater places, in
  the order in which they are given. -/
  later : p.later.Sublist p.candidates ∧ ∀ t, t ∈ p.later ↔ t ∈ p.candidates ∧ t.IsLaterThan p.target
  /-- It puts one question when there are later occurrences, and none otherwise. -/
  asked : ((reached answers before).take p).2.asked =
    (reached answers before).asked ++ if p.later = [] then [] else [question p.mutation]
  /-- Each question uses one answer, the first one that is left. -/
  uses : unused answers (before ++ [p]) =
    if p.later = [] then unused answers before else (unused answers before).tail
  alone : p.later = [] → ((reached answers before).take p).1 =
    .ok ⟨.applied, [p.mutation.apply p.now p.target]⟩
  /-- An answer that is missing is a no. -/
  answered : p.later ≠ [] → ((reached answers before).take p).1 =
    match (unused answers before).head? with
    | some .yes => .ok ⟨.applied, (p.target :: p.later).map (p.mutation.apply p.now)⟩
    | some .no | none => .ok ⟨.rejected, [p.mutation.apply p.now p.target]⟩
    | some .unavailable => .error .confirmation
  /-- It fails where its question cannot be put. The proposals behind it end as they do without it and
  without its answer. -/
  failed : ∀ f, ((reached answers before).take p).1 = .error f →
    f = .confirmation ∧ ((reached answers before).take p).2.state = .idle ∧
      ∃ front rest, answers = front ++ .unavailable :: rest ∧
        front.length = (before.flatMap Proposal.questions).length ∧
        ((start (.script (front ++ rest))).takeAll (before ++ behind)).1 =
          ((start (.script answers)).takeAll before).1 ++
            (((reached answers before).take p).2.takeAll behind).1
  final : ∀ o, ((reached answers before).take p).1 = .ok o →
    (o.state = .applied ∨ o.state = .rejected) ∧
      ((reached answers before).take p).2.state = o.state

/-- A failure that comes next is behind as many answers as questions were put. -/
lemma exists_failed {answers : List Answer} {before : List Proposal}
    (h : (unused answers before).headD .no = .unavailable) :
    ∃ front rest, answers = front ++ .unavailable :: rest ∧
      front.length = (before.flatMap Proposal.questions).length ∧
      unused answers before = .unavailable :: rest := by
  cases hleft : unused answers before with
  | nil =>
    rw [hleft] at h
    exact absurd h nofun
  | cons answer rest =>
    rw [hleft] at h
    obtain rfl : answer = .unavailable := h
    refine ⟨answers.take (before.flatMap Proposal.questions).length, rest, ?_, ?_, rfl⟩
    · rw [← hleft]
      exact (List.take_append_drop _ _).symm
    · have hlonger := congrArg List.length hleft
      unfold unused at hlonger
      rw [List.length_drop, List.length_cons] at hlonger
      rw [List.length_take]
      omega

/-- Without a failure and the proposal that met it, the others in a row end as they do with them. -/
lemma outcomes_without {front rest : List Answer} {before : List Proposal} (answer : Answer)
    (behind : List Proposal) (h : front.length = (before.flatMap Proposal.questions).length) :
    Proposal.outcomes (before ++ behind) (front ++ rest) =
      Proposal.outcomes before (front ++ answer :: rest) ++ Proposal.outcomes behind rest := by
  have hfront : ∀ l, Proposal.outcomes before (front ++ l) = Proposal.outcomes before front := by
    intro l
    rw [← Proposal.outcomes_take (Nat.le_of_eq h.symm) (front ++ l), List.take_left]
  rw [Proposal.outcomes_append, ← h, List.drop_left, hfront, hfront]

section
variable {answers : List Answer} {before : List Proposal} {p : Proposal}

/-- A proposal fails when the answer that is left first is none. The coordinator then waits for nothing, and
the proposals behind end as if neither the proposal nor the answer had been there. -/
lemma failed_of_take {f : Fault} (behind : List Proposal)
    (h : ((reached answers before).take p).1 = .error f) :
    f = .confirmation ∧ ((reached answers before).take p).2.state = .idle ∧
      ∃ front rest, answers = front ++ .unavailable :: rest ∧
        front.length = (before.flatMap Proposal.questions).length ∧
        ((start (.script (front ++ rest))).takeAll (before ++ behind)).1 =
          ((start (.script answers)).takeAll before).1 ++
            (((reached answers before).take p).2.takeAll behind).1 := by
  have htake := take_reached answers before p
  rw [htake] at h
  rcases p.outcome_cases ((unused answers before).headD .no) with ⟨o, ho, -⟩ | ⟨hfails, hlater, hanswer⟩
  · rw [ho] at h
    exact absurd h nofun
  rw [hfails] at h
  obtain ⟨front, rest, hsplit, hlength, hunused⟩ := exists_failed hanswer
  -- the failure is used up, and what is left is left to the proposals behind
  have hbehind : ((reached answers before).take p).2.respondent = .script rest := by
    rw [htake, hunused]
    unfold Proposal.questions
    rw [if_neg hlater]
    rfl
  refine ⟨(Except.error.inj h).symm, ?_, front, rest, hsplit, hlength, ?_⟩
  · rw [htake, hfails]
    rfl
  · rw [(takeAll_eq rfl _).1, (takeAll_eq rfl _).1, (takeAll_eq hbehind _).1,
      outcomes_without .unavailable behind hlength, ← hsplit]

/-- A proposal that does not fail ends as applied or rejected, and leaves the coordinator so. -/
lemma final_of_take {o : Outcome} (h : ((reached answers before).take p).1 = .ok o) :
    (o.state = .applied ∨ o.state = .rejected) ∧
      ((reached answers before).take p).2.state = o.state := by
  rw [take_reached] at h ⊢
  rcases p.outcome_cases ((unused answers before).headD .no) with ⟨o', ho', hfinal⟩ | ⟨hfails, -, -⟩
  · rw [ho'] at h ⊢
    obtain rfl := Except.ok.inj h
    exact ⟨hfinal, rfl⟩
  · rw [hfails] at h
    exact absurd h nofun

end

/-- Proposals in a row are taken apart from each other, with the answers that are left each time. -/
theorem proposals_apart (answers : List Answer) (before : List Proposal) (p : Proposal)
    (behind : List Proposal) : Apart answers before p behind where
  outcome := by rw [take_reached, take_eq rfl p]
  outcomes := by
    rw [(takeAll_eq rfl _).1, (takeAll_eq rfl _).1, (takeAll_eq rfl _).1, take_eq rfl p,
      Proposal.outcomes_append, unused_concat]
    rfl
  later := ⟨p.later_sublist, fun _ => Proposal.mem_later_iff⟩
  asked := by
    rw [take_reached]
    rfl
  uses := by
    rw [unused_concat]
    unfold Proposal.questions
    split
    · rfl
    · exact List.drop_one
  alone := by
    intro hnone
    rw [take_reached]
    exact if_pos hnone
  answered := by
    intro hsome
    rw [take_reached]
    refine (if_neg hsome).trans ?_
    cases unused answers before with
    | nil => rfl
    | cons answer rest => cases answer <;> rfl
  failed _ h := failed_of_take behind h
  final _ h := final_of_take h

/-- The rent at a place of its series. -/
def rent (place : Nat) (status : Status) : Task :=
  { Task.fresh (TaskId.drawn 1 (1 + place)) "pay the rent" .epoch with
    status := status
    parent := some (TaskId.drawn 1 0)
    mask := some place }

/-- The rent is deleted from its second place on, when the first and the last one are paid and a task of
another series is pending. -/
def deleteRent : Proposal where
  mutation := .delete
  target := rent 1 .pending
  candidates := [rent 0 .completed, rent 1 .pending, rent 2 .pending, rent 3 .completed,
    { rent 4 .pending with parent := some (TaskId.drawn 2 0) }]
  now := .epoch

/-- The question about the third rent cannot be put at first and is answered with yes when the same is
proposed once more: nothing changes, and then both are deleted. -/
theorem proposals_apart_rent :
    (deleteRent.later = [rent 2 .pending] ∧ (rent 2 .pending).IsLaterThan deleteRent.target) ∧
    ((reached [.unavailable, .yes] []).take deleteRent).1 = .error .confirmation ∧
    ((reached [.unavailable, .yes] [deleteRent]).take deleteRent).1 =
      .ok ⟨.applied, [rent 1 .pending, rent 2 .pending].map (Mutation.delete.apply .epoch)⟩ ∧
    ((reached [.unavailable, .yes] [deleteRent]).take deleteRent).2.asked =
      [question .delete, question .delete] ∧
    ((reached [.unavailable, .yes] [deleteRent]).take deleteRent).2.state = .applied := by
  have hlater : deleteRent.later = [rent 2 .pending] := by decide
  have hsome : deleteRent.later ≠ [] := by
    rw [hlater]
    exact List.cons_ne_nil _ _
  have hfirst := proposals_apart [.unavailable, .yes] [] deleteRent [deleteRent]
  have hsecond := proposals_apart [.unavailable, .yes] [deleteRent] deleteRent []
  have hmember : rent 2 .pending ∈ deleteRent.later := by
    rw [hlater]
    exact List.mem_singleton_self _
  have happlied := hsecond.answered hsome
  exact ⟨⟨hlater, ((hsecond.later.2 _).mp hmember).2⟩, hfirst.answered hsome, happlied,
    hsecond.asked, (hsecond.final _ happlied).2⟩

end Coordinator

end TaskSeries
