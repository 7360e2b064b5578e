import Provisioning.Model.AckManager

/-!
# One prefill request is settled once

The three `except` clauses around the task group tell failures apart by their classes: one that is
to be tried again, a request that is not valid, and everything else. But what comes out of a task
group is an `ExceptionGroup`, so the first two clauses are never taken, and a failure to be tried
again ends the service.

**`settled_once_iff`** says for which ends of the handler and of the acknowledgements in progress a
round does what the clauses say, whatever the order in which things happen.

## What has to be known of a task group

A group has a body and two children here, and all three can end, fail or be cancelled in any order.
The result depends on the recorded failures only, and these in turn on which children have failed
with something else than a cancellation. `Processing.Kept` is the invariant: where each of the tasks
stands, in terms of what has *happened*, so that at the end of the group its result is a function of
the steps of the round. The library has the part of it that holds of every group.

The subtle field is the one about the body. The body awaits the handler, so it ends as the handler
does; but the group cancels it when a child fails, and then it ends with a cancellation although the
handler may have returned. Which of the two it was shows in whether a failure is recorded.

## The four kinds of results

A group that is over has succeeded; or has recorded nothing and ends with a cancellation that nobody
has asked for; or has recorded failures that are `Exception`s; or one that is not. One lemma
computes the settlement of each kind, and the equivalence is then a comparison with the clauses,
kind by kind.
-/

namespace Provisioning

open Await TaskGroup

/-! ## What happened in a round -/

/-! The property is about the ends of the handler and of the acknowledgements, wherever in the round
they come. They are read off the list of its steps. -/

/-- How the handler ended. -/
def handlerEnd (done : List RoundStep) : Option (Except PyError Unit) :=
  done.findSome? fun
    | .tick (.handlerEnds how) => some how
    | _ => none

/-- What an acknowledgement in progress raised. -/
def inProgressError (done : List RoundStep) : Option PyError :=
  done.findSome? fun
    | .tick (.inProgressRaises e) => some e
    | _ => none

/-- What the sending of the `ack` or `nak` raised. -/
def sendingError (done : List RoundStep) : Option PyError :=
  done.findSome? fun
    | .settles (.error e) => some e
    | _ => none

/-- The handler returned, and all acknowledgements in progress went through. -/
def Succeeded (done : List RoundStep) : Prop :=
  handlerEnd done = some (.ok ()) ∧ inProgressError done = none

/-- One of the two has failed with the exception. -/
def FailedWith (done : List RoundStep) (e : PyError) : Prop :=
  handlerEnd done = some (.error e) ∨ inProgressError done = some e

/-- **Settled once, by the kind of the outcome.** -/
structure SettledByOutcome (done : List RoundStep) (r : Round) : Prop where
  once : r.sent.length = 1
  ack : .ack ∈ r.sent ↔ Succeeded done
  /-- A failure to be tried again is not the end. -/
  recoverable : handlerEnd done = some (.error .prefillFailedError) →
    r.sent = [.nak] ∧ (sendingError done = none → r.ended = some .nextRequest)
  other : ¬ Succeeded done → handlerEnd done ≠ some (.error .prefillFailedError) →
    r.sent = [.nak] ∧ r.ended = some .raised

/-- The handler does not raise `PrefillFailedError` (unless the `nak` cannot be sent either), what
is raised are `Exception`s, and a cancellation nobody has asked for comes only beside one. -/
structure Settleable (done : List RoundStep) : Prop where
  recoverable : handlerEnd done = some (.error .prefillFailedError) → sendingError done ≠ none
  exceptions : ∀ e, FailedWith done e → e.isException = true ∨ e = .cancelledError
  cancelled : FailedWith done .cancelledError → ∃ e, FailedWith done e ∧ e.isException = true

/-! ## Where the tasks are -/

/-! The steps of a round are added at the end, so the functions above are computed from the front
and the lemmas are about a list with one more element. -/

section Kept

variable {done : List RoundStep} {p q : Processing} {r : Round} {l : RoundStep}

-- One step more: what has happened before counts first.
theorem handlerEnd_snoc : handlerEnd (done ++ [l]) = (handlerEnd done).or (handlerEnd [l]) :=
  List.findSome?_append

theorem inProgressError_snoc :
    inProgressError (done ++ [l]) = (inProgressError done).or (inProgressError [l]) :=
  List.findSome?_append

theorem sendingError_snoc :
    sendingError (done ++ [l]) = (sendingError done).or (sendingError [l]) :=
  List.findSome?_append

/-- How the handler has ended, if it has. -/
def Processing.handler (p : Processing) : Option (Except PyError Unit) :=
  (p.group.task .messageHandlerTask).ended?

/-- How the acknowledgements in progress have ended, if they have. -/
def Processing.extender (p : Processing) : Option (Except PyError Unit) :=
  (p.group.task .ackExtender).ended?

/-- How the tasks stand after these steps. -/
structure Processing.Kept (done : List RoundStep) (p : Processing) : Prop where
  group : p.group.Kept asyncioClasses
  handler : p.handler = handlerEnd done
  /-- An extender that has not failed runs, or was cancelled. -/
  extender : inProgressError done = none →
    p.extender = none ∨ p.extender = some (.error .cancelledError)
  failed : ∀ e, inProgressError done = some e → p.extender = some (.error e)
  /-- The body is cancelled by the group, or ends as the handler. -/
  body : p.group.body = none ∨
    (p.group.body = some (.error .cancelledError) ∧ p.group.errors ≠ []) ∨
    ∃ how, p.group.body = some how ∧ p.handler = some how

/-- At the start all three run. -/
theorem Processing.kept_start : Processing.Kept [] .start :=
  ⟨Group.kept_start, rfl, fun _ => Or.inl rfl, nofun, Or.inl rfl⟩

/-- A step of the extender that leaves the tasks alone. -/
theorem Processing.Kept.calling (h : p.Kept done) (b : Bool) (hh : handlerEnd [l] = none)
    (hi : inProgressError [l] = none) :
    Processing.Kept (done ++ [l]) { p with calling := b } := by
  have hhandler : handlerEnd (done ++ [l]) = handlerEnd done := by
    rw [handlerEnd_snoc, hh, Option.or_none]
  have hextender : inProgressError (done ++ [l]) = inProgressError done := by
    rw [inProgressError_snoc, hi, Option.or_none]
  refine ⟨h.group, ?_, ?_, ?_, h.body⟩
  · rw [hhandler]
    exact h.handler
  · rw [hextender]
    exact h.extender
  · rw [hextender]
    exact h.failed

/-- The handler ends. -/
theorem Processing.Kept.handlerEnds (h : p.Kept done) (hp : p.handler = none)
    (how : Except PyError Unit) : Processing.Kept (done ++ [.tick (.handlerEnds how)])
      { p with group := p.group.taskEnds asyncioClasses .messageHandlerTask how } := by
  have hextender : inProgressError (done ++ [.tick (.handlerEnds how)]) = inProgressError done := by
    rw [inProgressError_snoc]
    exact Option.or_none
  have hsame : Processing.extender
      { p with group := p.group.taskEnds asyncioClasses .messageHandlerTask how } = p.extender :=
    Group.taskEnds_ended?_of_ne nofun
  refine ⟨h.group.taskEnds hp how, ?_, ?_, ?_, ?_⟩
  · rw [handlerEnd_snoc, ← h.handler, hp]
    exact Group.taskEnds_ended?_self
  · rw [hextender, hsame]
    exact h.extender
  · rw [hextender, hsame]
    exact h.failed
  · dsimp only
    rw [Group.taskEnds_body]
    rcases h.body with hnone | ⟨hcancelled, herrors⟩ | ⟨how', -, hhow⟩
    · exact Or.inl hnone
    · exact Or.inr (Or.inl ⟨hcancelled, Group.taskEnds_errors herrors⟩)
    · rw [hp] at hhow
      cases hhow

/-- The extender ends. -/
theorem Processing.Kept.extenderEnds (h : p.Kept done) (hp : p.extender = none) (e : PyError)
    (hh : handlerEnd [l] = none)
    (hi : inProgressError [l] = some e ∨ (inProgressError [l] = none ∧ e = .cancelledError)) :
    Processing.Kept (done ++ [l])
      { p with group := p.group.taskEnds asyncioClasses .ackExtender (.error e) } := by
  have hself : Processing.extender
      { p with group := p.group.taskEnds asyncioClasses .ackExtender (.error e) } =
        some (.error e) :=
    Group.taskEnds_ended?_self
  have hsame : Processing.handler
      { p with group := p.group.taskEnds asyncioClasses .ackExtender (.error e) } = p.handler :=
    Group.taskEnds_ended?_of_ne nofun
  have hnone : inProgressError done = none := by
    cases herror : inProgressError done with
    | none => rfl
    | some e' =>
      have hended := h.failed e' herror
      rw [hp] at hended
      cases hended
  refine ⟨h.group.taskEnds hp (.error e), ?_, ?_, ?_, ?_⟩
  · rw [hsame, handlerEnd_snoc, hh, Option.or_none]
    exact h.handler
  · intro hl
    rw [inProgressError_snoc, hnone, Option.none_or] at hl
    rcases hi with hi | ⟨-, rfl⟩
    · rw [hi] at hl
      cases hl
    · exact Or.inr hself
  · intro e' hl
    rw [inProgressError_snoc, hnone, Option.none_or] at hl
    rcases hi with hi | ⟨hi, -⟩
    · rw [hi] at hl
      rw [hself, Option.some.inj hl]
    · rw [hi] at hl
      cases hl
  · dsimp only
    rw [Group.taskEnds_body, hsame]
    rcases h.body with hbody | ⟨hcancelled, herrors⟩ | hhow
    · exact Or.inl hbody
    · exact Or.inr (Or.inl ⟨hcancelled, Group.taskEnds_errors herrors⟩)
    · exact Or.inr (Or.inr hhow)

/-- The body is resumed, and is over. -/
theorem Processing.Kept.resumeBody (h : p.Kept done) (hp : p.group.body = none) {c : Bool}
    {how : Except PyError Unit}
    (hhow : (how = .error .cancelledError ∧ p.group.errors ≠ []) ∨ p.handler = some how) :
    Processing.Kept (done ++ [.tick (.bodyResumes c)]) (p.resumeBody how) := by
  have hhandler : handlerEnd (done ++ [.tick (.bodyResumes c)]) = handlerEnd done := by
    rw [handlerEnd_snoc]
    exact Option.or_none
  have hextender : inProgressError (done ++ [.tick (.bodyResumes c)]) = inProgressError done := by
    rw [inProgressError_snoc]
    exact Option.or_none
  have hsame : ∀ i, ((p.resumeBody how).group.task i).ended? = (p.group.task i).ended? := by
    intro i
    cases how with
    | ok _ =>
      unfold Processing.resumeBody
      rw [Group.bodyEnds_ended?, Group.cancelTask_ended?]
    | error e => exact Group.bodyEnds_ended? i
  have hbody : (p.resumeBody how).group.body = some how := by
    cases how with
    | ok _ => exact Group.bodyEnds_body
    | error e => exact Group.bodyEnds_body
  have hkept : (p.resumeBody how).group.Kept asyncioClasses := by
    cases how with
    | ok _ => exact (h.group.cancelTask .ackExtender).bodyEnds hp (.ok ())
    | error e => exact h.group.bodyEnds hp (.error e)
  -- The children stay as they are, up to their cancellation, which the body asks for.
  refine ⟨hkept, ?_, ?_, ?_, ?_⟩
  · rw [hhandler, ← h.handler]
    exact hsame _
  · rw [hextender]
    unfold Processing.extender
    rw [hsame]
    exact h.extender
  · rw [hextender]
    unfold Processing.extender
    rw [hsame]
    exact h.failed
  · right
    rcases hhow with ⟨rfl, herrors⟩ | hhow
    · exact Or.inl ⟨hbody, Group.bodyEnds_errors herrors⟩
    · exact Or.inr ⟨how, hbody, (hsame _).trans hhow⟩

-- Where a task has got to, as an option.
theorem ended?_of_running {ε : Type} {t : TaskGroup.Task ε} {c : Bool} (h : t = .running c) :
    t.ended? = none := by
  rw [h]
  rfl

theorem ended?_of_ended {ε : Type} {t : TaskGroup.Task ε} {how : Except ε Unit}
    (h : t = .ended how) : t.ended? = some how := by
  rw [h]
  rfl

/-- **A tick of the group.** -/
theorem Processing.Kept.step (h : p.Kept done) {t : Tick} (hs : p.step t = some q) :
    q.Kept (done ++ [.tick t]) := by
  -- The guard of each tick says whose task is running, and that is all its lemma asks for.
  cases t with
  | handlerEnds how =>
    dsimp only [Processing.step] at hs
    split at hs
    · next hp =>
      cases hs
      exact h.handlerEnds (ended?_of_running hp) how
    · cases hs
  | sleepEnds =>
    dsimp only [Processing.step] at hs
    split at hs
    · split at hs
      · cases hs
      · cases hs
        exact h.calling true rfl rfl
    · cases hs
  | ackWaitExtended =>
    dsimp only [Processing.step] at hs
    split at hs
    · split at hs
      · cases hs
        exact h.calling false rfl rfl
      · cases hs
    · cases hs
  | inProgressRaises e =>
    dsimp only [Processing.step] at hs
    split at hs
    · next hp =>
      split at hs
      · cases hs
        exact h.extenderEnds (ended?_of_running hp) e rfl (Or.inl rfl)
      · cases hs
    · cases hs
  | extenderCancelled =>
    dsimp only [Processing.step] at hs
    split at hs
    · next hp =>
      cases hs
      exact h.extenderEnds (ended?_of_running hp) .cancelledError rfl (Or.inr ⟨rfl, rfl⟩)
    · cases hs
  | bodyResumes c =>
    dsimp only [Processing.step] at hs
    split at hs
    · cases hs
    · next hbody =>
      split at hs
      · split at hs
        · cases hs
        · next herrors =>
          cases hs
          refine h.resumeBody hbody (Or.inl ⟨rfl, fun hnil => herrors ?_⟩)
          rw [hnil]
          rfl
      · split at hs
        · next hp =>
          cases hs
          exact h.resumeBody hbody (Or.inr (ended?_of_ended hp))
        · cases hs

/-! ## What comes out of the group -/

/-! The clauses see an exception, which is the group of the recorded failures, or a single one that
is not an `Exception`, or the cancellation of the body. -/

/-- The recorded failures are those of the handler and of the acknowledgements in progress. -/
theorem Processing.Kept.mem_errors (h : p.Kept done) (e : PyError) :
    e ∈ p.group.errors ↔ e ≠ .cancelledError ∧ FailedWith done e := by
  have hclass : asyncioClasses.cancelled e = false ↔ e ≠ .cancelledError := beq_eq_false_iff_ne
  rw [h.group.mem_errors, hclass]
  refine and_congr_right fun hne => ?_
  constructor
  · -- An error of the group comes from a child or from the body; and the body only passes on what
    -- the handler has raised.
    intro hended
    rcases hended with ⟨i, hi⟩ | hbody
    · cases i with
      | messageHandlerTask => exact Or.inl (h.handler.symm.trans hi)
      | ackExtender =>
        have hi : p.extender = some (.error e) := hi
        cases herror : inProgressError done with
        | none =>
          rcases h.extender herror with hnone | hcancelled
          · rw [hnone] at hi
            cases hi
          · rw [hcancelled] at hi
            exact absurd (Except.error.inj (Option.some.inj hi)).symm hne
        | some e' =>
          rw [h.failed e' herror] at hi
          rw [Except.error.inj (Option.some.inj hi)] at herror
          exact Or.inr herror
    · rcases h.body with hnone | ⟨hcancelled, -⟩ | ⟨how, hhow, hhandler⟩
      · rw [hnone] at hbody
        cases hbody
      · rw [hcancelled] at hbody
        exact absurd (Except.error.inj (Option.some.inj hbody)).symm hne
      · rw [hhow] at hbody
        rw [Option.some.inj hbody] at hhandler
        exact Or.inl (h.handler.symm.trans hhandler)
  · intro hfailed
    rcases hfailed with hhandler | herror
    · exact Or.inl ⟨.messageHandlerTask, h.handler.trans hhandler⟩
    · exact Or.inl ⟨.ackExtender, h.failed e herror⟩

/-- What is known of a group that is over: its handler has ended, and without a failure the body has
ended as the handler. -/
theorem Processing.Kept.ended (h : p.Kept done) (hover : p.over = true) :
    ∃ how, handlerEnd done = some how ∧ (p.group.errors = [] → p.group.body = some how) := by
  unfold Processing.over at hover
  rw [Bool.and_eq_true, Bool.and_eq_true] at hover
  obtain ⟨⟨hbody, -⟩, hhandler⟩ := hover
  obtain ⟨how, hhow⟩ := Option.isSome_iff_exists.mp hhandler
  refine ⟨how, h.handler.symm.trans hhow, ?_⟩
  intro hnil
  rcases h.body with hnone | ⟨-, hne⟩ | ⟨how', hhow', hhandler'⟩
  · rw [hnone] at hbody
    cases hbody
  · exact absurd hnil hne
  · rw [hhow', ← hhandler']
    exact hhow

/-- **Success**: nothing has failed. -/
theorem Processing.Kept.settlement_ok (h : p.Kept done) (hover : p.over = true)
    (hnil : p.group.errors = []) (hok : handlerEnd done = some (.ok ())) :
    settlement (p.group.result asyncioClasses) = (some .ack, .nextRequest) := by
  obtain ⟨how, hhow, hbody⟩ := h.ended hover
  rw [hok] at hhow
  rw [Group.result_of_no_errors hnil, hbody hnil, ← Option.some.inj hhow]
  rfl

/-- **A cancellation that nobody asked for** is no `Exception`. -/
theorem Processing.Kept.settlement_cancelled (h : p.Kept done) (hover : p.over = true)
    (hnil : p.group.errors = []) {e : PyError} (herror : handlerEnd done = some (.error e)) :
    settlement (p.group.result asyncioClasses) = (none, .raised) := by
  obtain ⟨how, hhow, hbody⟩ := h.ended hover
  have hcancelled : e = .cancelledError := by
    by_contra hne
    have hmem := (h.mem_errors e).mpr ⟨hne, Or.inl herror⟩
    rw [hnil] at hmem
    cases hmem
  rw [herror] at hhow
  rw [Group.result_of_no_errors hnil, hbody hnil, ← Option.some.inj hhow, hcancelled]
  rfl

/-- **Failures** are settled by the last clause, whatever they are. -/
theorem settlement_failed {g : Group Child PyError} (hne : g.errors ≠ [])
    (hall : ∀ e ∈ g.errors, e.isException = true) :
    settlement (g.result asyncioClasses) = (some .nak, .raised) := by
  have hexit : ∀ e ∈ g.errors, asyncioClasses.exiting e = false := by
    intro e he
    have hexception := hall e he
    cases e with
    | exit => cases hexception
    | _ => rfl
  have hcaught : catches .exception (.group g.errors) = true := List.all_eq_true.mpr hall
  rw [Group.result_of_errors hne hexit]
  unfold settlement
  dsimp only
  rw [hcaught]
  rfl

/-- **What is no `Exception`** passes all clauses. -/
theorem settlement_base {g : Group Child PyError} {e : PyError} (hmem : e ∈ g.errors)
    (hbase : e.isException = false) :
    settlement (g.result asyncioClasses) = (none, .raised) := by
  by_cases hexit : ∃ e' ∈ g.errors, asyncioClasses.exiting e' = true
  · obtain ⟨e', hmem', hexit'⟩ := hexit
    obtain ⟨e'', -, hexit'', hresult⟩ := Group.result_of_exiting hmem' hexit'
    have heq : e'' = .exit := beq_iff_eq.mp hexit''
    rw [hresult, heq]
    rfl
  · have hnone : ∀ e' ∈ g.errors, asyncioClasses.exiting e' = false := by
      intro e' he'
      by_contra hexit'
      exact hexit ⟨e', he', Bool.not_eq_false _ ▸ hexit'⟩
    have hpass : catches .exception (.group g.errors) = false := by
      apply Bool.eq_false_iff.mpr
      intro hall
      rw [List.all_eq_true.mp hall e hmem] at hbase
      cases hbase
    rw [Group.result_of_errors (List.ne_nil_of_mem hmem) hnone]
    unfold settlement
    dsimp only
    rw [hpass]
    rfl

end Kept

/-! ## The round -/

/-! Around the group stands the sending of what was chosen, which may fail as well: then nothing is
known to have arrived, and the round raises. -/

section Rounds

variable {done : List RoundStep} {p : Processing} {r : Round}

/-- A round is in its task group, or it is over. -/
inductive Round.At (done : List RoundStep) : Round → Prop where
  | running (p : Processing) (hp : p.Kept done) (hsend : sendingError done = none) :
      Round.At done ⟨p, [], none⟩
  | settled (p : Processing) (answer : Except PyError Unit) (hp : p.Kept done)
      (hover : p.over = true) (hsend : sendingError done = none ↔ answer = .ok ()) :
      Round.At done (Round.settle ⟨p, [], none⟩ answer)

/-- A round that has settled is over. -/
theorem Round.settle_ended (r : Round) (answer : Except PyError Unit) :
    ∃ e, (r.settle answer).ended = some e := by
  unfold Round.settle
  split
  · exact ⟨_, rfl⟩
  · exact ⟨_, rfl⟩

/-- **A step of the round.** -/
theorem Round.At.step {l : RoundStep} {r' : Round} (h : r.At done) (hs : r.step l = some r') :
    r'.At (done ++ [l]) := by
  cases h with
  | running p hp hsend =>
    cases l with
    | tick t =>
      obtain ⟨q, hq, rfl⟩ := Option.map_eq_some_iff.mp hs
      refine .running q (hp.step hq) ?_
      rw [sendingError_snoc, hsend]
      rfl
    | settles answer =>
      dsimp only [Round.step] at hs
      split at hs
      · next hover =>
        cases hs
        refine .settled p answer (hp.calling p.calling rfl rfl) hover ?_
        rw [sendingError_snoc, hsend, Option.none_or]
        cases answer with
        | ok _ => exact iff_of_true rfl rfl
        | error e => exact iff_of_false nofun nofun
      · cases hs
  -- A round that has settled takes no step.
  | settled p answer hp hover hsend =>
    obtain ⟨e, he⟩ := Round.settle_ended ⟨p, [], none⟩ answer
    unfold Round.step at hs
    cases l with
    | tick t =>
      rw [he] at hs
      cases hs
    | settles answer' =>
      rw [he] at hs
      cases hs

/-- What a round that is over has done, by what its settlement was. -/
theorem Round.settle_of (answer : Except PyError Unit) {s : Option Settlement} {e : RoundEnd}
    (h : settlement (p.group.result asyncioClasses) = (s, e)) :
    (Round.settle ⟨p, [], none⟩ answer).sent = s.toList ∧
      (Round.settle ⟨p, [], none⟩ answer).ended =
        some (if s.isSome ∧ answer ≠ .ok () then .raised else e) := by
  unfold Round.settle
  dsimp only
  rw [h]
  cases s with
  | none => exact ⟨rfl, rfl⟩
  | some s =>
    cases answer with
    | ok _ => exact ⟨rfl, rfl⟩
    | error x =>
      refine ⟨rfl, ?_⟩
      rw [if_pos ⟨rfl, nofun⟩]

/-- Nothing has failed, apart from cancellations. -/
theorem settled_iff_of_success (hover : p.over = true) (hp : p.Kept done)
    (answer : Except PyError Unit) (hnil : p.group.errors = []) :
    SettledByOutcome done (Round.settle ⟨p, [], none⟩ answer) ↔ Settleable done := by
  have hfailures : ∀ e, FailedWith done e → e = .cancelledError := by
    intro e he
    by_contra hne
    have hmem := (hp.mem_errors e).mpr ⟨hne, he⟩
    rw [hnil] at hmem
    cases hmem
  -- A cancellation has no `Exception` beside it.
  have halone : Settleable done → ¬ FailedWith done .cancelledError := by
    intro hsettleable hcancelled
    obtain ⟨e, he, hexception⟩ := hsettleable.cancelled hcancelled
    rw [hfailures e he] at hexception
    cases hexception
  obtain ⟨how, hhow, -⟩ := hp.ended hover
  cases how with
  | error e =>
    obtain ⟨hsent, -⟩ := Round.settle_of answer
      (hp.settlement_cancelled hover hnil hhow)
    apply iff_of_false
    · intro hsettled
      have hlength := hsettled.once
      rw [hsent] at hlength
      cases hlength
    · intro hsettleable
      apply halone hsettleable
      rw [← hfailures e (Or.inl hhow)]
      exact Or.inl hhow
  | ok _ =>
    obtain ⟨hsent, -⟩ := Round.settle_of answer (hp.settlement_ok hover hnil hhow)
    have hmem : .ack ∈ (Round.settle ⟨p, [], none⟩ answer).sent := by
      rw [hsent]
      exact List.mem_singleton_self _
    have hreturned : handlerEnd done ≠ some (.error .prefillFailedError) := by
      rw [hhow]
      nofun
    cases herror : inProgressError done with
    | none =>
      have hnone : ∀ e, ¬ FailedWith done e := by
        intro e he
        rcases he with he | he
        · rw [hhow] at he
          cases he
        · rw [herror] at he
          cases he
      apply iff_of_true
      · refine ⟨by rw [hsent]; rfl, iff_of_true hmem ⟨hhow, herror⟩, ?_, ?_⟩
        · exact fun h => absurd h hreturned
        · exact fun h => absurd ⟨hhow, herror⟩ h
      · refine ⟨fun h => absurd h hreturned, ?_, ?_⟩
        · exact fun e he => absurd he (hnone e)
        · exact fun he => absurd he (hnone _)
    | some e =>
      apply iff_of_false
      · intro hsettled
        have hnone := (hsettled.ack.mp hmem).2
        rw [herror] at hnone
        cases hnone
      · intro hsettleable
        apply halone hsettleable
        rw [← hfailures e (Or.inr herror)]
        exact Or.inr herror

/-- Something has failed. -/
theorem settled_iff_of_failure (hp : p.Kept done) (answer : Except PyError Unit)
    (hne : p.group.errors ≠ []) :
    SettledByOutcome done (Round.settle ⟨p, [], none⟩ answer) ↔ Settleable done := by
  -- Either all failures can be caught, and the message is settled as failed, or one cannot and
  -- passes by.
  by_cases hall : ∀ e ∈ p.group.errors, e.isException = true
  · obtain ⟨hsent, hended⟩ := Round.settle_of answer (settlement_failed hne hall)
    rw [ite_self] at hended
    obtain ⟨e, hmem⟩ := List.exists_mem_of_ne_nil _ hne
    have hfailed := ((hp.mem_errors e).mp hmem).2
    have hfailure : ¬ Succeeded done := by
      intro hsuccess
      rcases hfailed with he | he
      · rw [hsuccess.1] at he
        cases he
      · rw [hsuccess.2] at he
        cases he
    constructor
    · intro hsettled
      refine ⟨?_, ?_, fun _ => ⟨e, hfailed, hall e hmem⟩⟩
      · intro hrecoverable hnone
        have hnext := (hsettled.recoverable hrecoverable).2 hnone
        rw [hended] at hnext
        cases hnext
      · intro e' he'
        by_cases hcancelled : e' = .cancelledError
        · exact Or.inr hcancelled
        · exact Or.inl (hall e' ((hp.mem_errors e').mpr ⟨hcancelled, he'⟩))
    · intro hsettleable
      refine ⟨by rw [hsent]; rfl, ?_, ?_, fun _ _ => ⟨hsent, hended⟩⟩
      · apply iff_of_false _ hfailure
        rw [hsent]
        intro hmem
        cases List.mem_singleton.mp hmem
      · exact fun hrecoverable => ⟨hsent, fun hnone =>
          absurd hnone (hsettleable.recoverable hrecoverable)⟩
  · -- Nothing is sent, and the condition is violated by that one.
    obtain ⟨e, hmem, hbase⟩ : ∃ e ∈ p.group.errors, e.isException = false := by
      by_contra hnone
      apply hall
      intro e hmem
      by_contra hbase
      exact hnone ⟨e, hmem, Bool.eq_false_iff.mpr hbase⟩
    obtain ⟨hcancelled, hfailed⟩ := (hp.mem_errors e).mp hmem
    obtain ⟨hsent, -⟩ := Round.settle_of answer (settlement_base hmem hbase)
    apply iff_of_false
    · intro hsettled
      have hlength := hsettled.once
      rw [hsent] at hlength
      cases hlength
    · intro hsettleable
      rcases hsettleable.exceptions e hfailed with hexception | heq
      · rw [hbase] at hexception
        cases hexception
      · exact hcancelled heq

end Rounds

/-- **When a request is settled by its outcome.** For every order of what the handler, the
acknowledgements in progress and the task group do, and every round that gets to its end: it sends
one `ack` or `nak`, the `ack` if and only if nothing has failed, and goes on or raises as the
clauses say, precisely if the round is settleable. -/
theorem settled_once_iff (done : List RoundStep) (r : Round)
    (hrun : Machine.run Round.step .start done = some r) (hended : r.ended ≠ none) :
    SettledByOutcome done r ↔ Settleable done := by
  have hat : r.At done := Machine.run_trace (I := fun done r => Round.At done r)
    (fun _ _ _ _ h hs => h.step hs) (.running .start Processing.kept_start rfl) hrun
  cases hat with
  | running => exact absurd rfl hended
  | settled p answer hp hover =>
    by_cases hnil : p.group.errors = []
    · exact settled_iff_of_success hover hp answer hnil
    · exact settled_iff_of_failure hp answer hnil

/-! ## The rounds of the service -/

/-! The model of the service has no task groups: it awaits its handler, and sends an `ack` or a
`nak` by its end. Here that is justified, for the rounds in which the acknowledgements in progress
go through. -/

/-- What is sent to NATS. -/
def Settlement.call (message : Msg) : Settlement → Op
  | .ack => .ack message
  | .nak => .nak message

/-- A round of the service once its handler has ended. -/
def afterHandler (message : Msg) : Except Exc Unit → Coro Unit
  | .ok _ => request (.ack message)
  | .error e => (request (.nak message)).bind fun _ => .throw e

/-- `prefillOnce` fetches a message, runs the handler and goes on by its end. -/
theorem prefillOnce_eq (env : Env) :
    prefillOnce env = (getOneMessage PREFILL_STREAM).bind fun found =>
      found.elim (.pure ()) fun message =>
        (handlePrefill env message).outcome.bind (afterHandler message) := by
  refine congrArg (Prog.bind (getOneMessage PREFILL_STREAM)) (funext fun found => ?_)
  cases found with
  | none => rfl
  | some message =>
    refine Prog.tryCatch_bind_eq (fun _ => rfl) fun e => ?_
    show _ = ((request (.nak message)).bind fun _ => Prog.throw e).bind _
    rw [Prog.bind_assoc]
    rfl

/-- **What the service sends is what the clauses choose**, as long as the acknowledgements in
progress go through: its rounds are those of the task group without the extender. -/
theorem afterHandler_settlement {done : List RoundStep} {p : Processing} (hp : p.Kept done)
    (hover : p.over = true) {how : Except Exc Unit}
    (hhow : handlerEnd done = some (how.mapError .exception)) (hnone : inProgressError done = none)
    (message : Msg) : ∃ s e, settlement (p.group.result asyncioClasses) = (some s, e) ∧
      (afterHandler message how).next? = some (s.call message) ∧
      (e = .nextRequest ↔ how = .ok ()) := by
  cases how with
  | ok _ =>
    have hnil : p.group.errors = [] := by
      rw [List.eq_nil_iff_forall_not_mem]
      intro e hmem
      rcases ((hp.mem_errors e).mp hmem).2 with he | he
      · rw [hhow] at he
        cases he
      · rw [hnone] at he
        cases he
    exact ⟨.ack, .nextRequest, hp.settlement_ok hover hnil hhow, rfl, iff_of_true rfl rfl⟩
  | error x =>
    have hmem : PyError.exception x ∈ p.group.errors :=
      (hp.mem_errors _).mpr ⟨nofun, Or.inl hhow⟩
    have hall : ∀ e ∈ p.group.errors, e.isException = true := by
      intro e he
      rcases ((hp.mem_errors e).mp he).2 with he | he
      · rw [hhow] at he
        rw [← Except.error.inj (Option.some.inj he)]
        rfl
      · rw [hnone] at he
        cases he
    exact ⟨.nak, .raised, settlement_failed (List.ne_nil_of_mem hmem) hall, rfl,
      iff_of_false nofun nofun⟩

/-! ## A failure to be tried again -/

/-! A round in which the wait is extended twice is settled as it should be, and one whose handler
fails with the error that is to be tried again is not. -/

/-- The wait is extended once, and once more while the handler returns. -/
def longRound : List RoundStep :=
  [.tick .sleepEnds, .tick .ackWaitExtended, .tick .sleepEnds, .tick (.handlerEnds (.ok ())),
    .tick (.bodyResumes false), .tick .extenderCancelled, .settles (.ok ())]

theorem settled_once_iff_long : ∃ r, Machine.run Round.step .start longRound = some r ∧
    r.ended ≠ none ∧ (SettledByOutcome longRound r ↔ Settleable longRound) := by
  obtain ⟨r, hrun, hended⟩ : ∃ r, Machine.run Round.step .start longRound = some r ∧
      r.ended = some .nextRequest := ⟨_, rfl, rfl⟩
  have hne : r.ended ≠ none := by
    rw [hended]
    nofun
  exact ⟨r, hrun, hne, settled_once_iff longRound r hrun hne⟩

/-- The handler raises `PrefillFailedError`, which cancels the extender and the body. -/
def failedRound : List RoundStep :=
  [.tick (.handlerEnds (.error .prefillFailedError)), .tick (.bodyResumes true),
    .tick .extenderCancelled, .settles (.ok ())]

/-- The clause for it is not taken: the round raises. -/
theorem not_settled_once : ¬ ∀ (done : List RoundStep) (r : Round),
    Machine.run Round.step .start done = some r → r.ended ≠ none → SettledByOutcome done r := by
  intro h
  obtain ⟨r, hrun, hended⟩ : ∃ r, Machine.run Round.step .start failedRound = some r ∧
      r.ended = some .raised := ⟨_, rfl, rfl⟩
  have hne : r.ended ≠ none := by
    rw [hended]
    nofun
  have hnext := ((h failedRound r hrun hne).recoverable rfl).2 rfl
  rw [hended] at hnext
  cases hnext

end Provisioning
