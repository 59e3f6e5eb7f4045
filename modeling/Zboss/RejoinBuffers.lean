import Zboss.RejoinProcedure
import Zboss.TransitionSystem

/-!
# The buffers of a rejoin

Each buffer which the handlers of a rejoin get is to be scheduled for one
callback or kept by the alarm of the response timeout until it leaves; at most
one callback continues the rejoin, and `tmp.rejoin.parent` is read only once a
parent has been chosen.
-/

namespace Zboss

open Option List Nat RejoinCallback TransitionSystem

def RejoinCallback.continues : RejoinCallback → Bool
  | .nlmeRejoinScanConfirm => true
  | .nlmeJoinConfirm => true
  | _ => false

def RejoinProcedureEvent.received : RejoinProcedureEvent → List ℕ
  | .rejoin param _ => [param]
  | .rejoinResponse param _ => [param]
  | .poll param => [param]
  | _ => []

def RejoinProcedureEvent.isScanConfirm : RejoinProcedureEvent → Bool
  | .scanConfirm _ _ => true
  | .call .nlmeRejoinScanConfirm _ _ => true
  | _ => false

namespace RejoinNwk

def continuations (nwk : RejoinNwk) : ℕ :=
  nwk.callbacks.countP fun entry => entry.1.continues

def held (nwk : RejoinNwk) (buf : ℕ) : ℕ :=
  nwk.callbacks.countP (fun entry => entry.2 == buf) + nwk.alarms.count buf

def readsParent (nwk : RejoinNwk) : RejoinProcedureEvent → Bool
  | .rejoinResponse _ _ => decide (nwk.state = .rejoin)
  | .responseTimeout param => decide (param ∈ nwk.alarms)
  | .pollConfirm param success =>
      decide (nwk.state = .rejoin) && !success &&
        decide ((.handlePollRequest, param) ∈ nwk.callbacks)
  | _ => false

def findsNoParent (nwk : RejoinNwk) : Bool :=
  match nwk.panidRef nwk.extendedPanId with
  | none => true
  | some panidRef => decide (nwk.nwkChooseParent panidRef = some none)

end RejoinNwk

structure RejoinBufferRun where
  nwk : RejoinNwk
  chosen : Bool
  received : List ℕ
  left : List ℕ
  unchosenRead : Bool

namespace RejoinBufferRun

def step (run : RejoinBufferRun) (event : RejoinProcedureEvent) :
    Option RejoinBufferRun :=
  if run.nwk.readsParent event && !run.chosen then
    some { run with
      received := run.received ++ event.received
      unchosenRead := true }
  else do
    let (next, left) ← run.nwk.step event
    return {
      nwk := next
      chosen := decide (next.state = .rejoin) && (event.isScanConfirm || run.chosen)
      received := run.received ++ event.received
      left := run.left ++ left
      unchosenRead := run.unchosenRead }

structure Owned (run : RejoinBufferRun) : Prop where
  held : ∀ buf, run.received.count buf = run.nwk.held buf + run.left.count buf
  alarm : run.nwk.alarms.length ≤ 1
  continuation : run.nwk.continuations ≤ 1
  chosen : run.unchosenRead = false

/-- While a rejoin is under way, a response comes only after a parent is chosen,
with no timeout running and nothing scheduled; the confirm of a request finds no
timeout running; timeouts and polls which fail find a parent chosen and nothing
scheduled; and no poll succeeds.  Nothing else schedules a second
continuation. -/
def Meets (run : RejoinBufferRun) : RejoinProcedureEvent → Prop
  | .rejoin _ _ => run.nwk.state ≠ .idle → run.nwk.continuations = 0
  | .scanConfirm param _ =>
      (.mlmeScanRequest, param) ∈ run.nwk.callbacks →
        run.nwk.state = .rejoin → run.nwk.findsNoParent = true → run.nwk.continuations = 0
  | .dataConfirm param =>
      (.nwkForward, param) ∈ run.nwk.callbacks →
        run.nwk.state = .rejoin → run.nwk.alarms = []
  | .rejoinResponse _ _ =>
      run.nwk.state = .rejoin →
        run.chosen = true ∧ run.nwk.alarms = [] ∧ run.nwk.continuations = 0
  | .responseTimeout param =>
      param ∈ run.nwk.alarms → run.chosen = true ∧
          (run.nwk.rxOnWhenIdle = true → run.nwk.continuations = 0)
  | .pollConfirm param success =>
      (.handlePollRequest, param) ∈ run.nwk.callbacks → run.nwk.state = .rejoin →
          success = false ∧ run.chosen = true ∧ run.nwk.continuations = 0
  | _ => True

def Pointed (run : RejoinBufferRun) : Prop :=
  run.chosen = true → run.nwk.state = .rejoin ∧
      ∃ i, run.nwk.parent = some i ∧ i < run.nwk.candidates.length

end RejoinBufferRun

namespace RejoinNwk

variable {nwk taken next : RejoinNwk} {callback : RejoinCallback} {param buf : ℕ}

theorem held_append (hcallbacks : next.callbacks = nwk.callbacks ++ [(callback, param)])
    (halarms : next.alarms = nwk.alarms) :
    next.held buf = nwk.held buf + [param].count buf := by
  have hone : [(callback, param)].countP (fun entry => entry.2 == buf) =
      [param].count buf := by
    rw [countP_singleton, count_singleton]
  rw [held, hcallbacks, halarms, countP_append, hone, held]
  exact add_right_comm _ _ _

theorem continuations_append
    (hcallbacks : next.callbacks = nwk.callbacks ++ [(callback, param)]) :
    next.continuations = nwk.continuations + callback.continues.toNat := by
  rw [continuations, hcallbacks, countP_append, countP_singleton, continuations]
  cases callback.continues with
  | false => rfl
  | true => rfl

theorem take_eq_some (htake : nwk.take callback param = some taken) :
    (callback, param) ∈ nwk.callbacks ∧
      taken = { nwk with
        callbacks := nwk.callbacks.erase (callback, param) } := by
  unfold take at htake
  split at htake
  · rename_i hmem
    exact ⟨hmem, (some.inj htake).symm⟩
  · contradiction

theorem take_of_mem (hmem : (callback, param) ∈ nwk.callbacks) : nwk.take callback param =
      some { nwk with callbacks := nwk.callbacks.erase (callback, param) } :=
  if_pos hmem

theorem countP_erase_add {entries : List (RejoinCallback × ℕ)} {entry : RejoinCallback × ℕ}
    (hmem : entry ∈ entries) (p : RejoinCallback × ℕ → Bool) :
    (entries.erase entry).countP p + (p entry).toNat = entries.countP p := by
  rw [(perm_cons_erase hmem).countP_eq, countP_cons]
  cases p entry with
  | false => rfl
  | true => rfl

theorem held_take (hmem : (callback, param) ∈ nwk.callbacks) : RejoinNwk.held
        { nwk with callbacks := nwk.callbacks.erase (callback, param) } buf +
      [param].count buf = nwk.held buf := by
  have hone : [param].count buf = (param == buf).toNat := by
    rw [count_singleton]
    cases param == buf with
    | false => rfl
    | true => rfl
  have hcallbacks := countP_erase_add hmem fun entry => entry.2 == buf
  rw [hone, held, held, ← hcallbacks]
  exact add_right_comm _ _ _

theorem continuations_take (hmem : (callback, param) ∈ nwk.callbacks) :
    RejoinNwk.continuations
        { nwk with callbacks := nwk.callbacks.erase (callback, param) } +
      callback.continues.toNat = nwk.continuations :=
  countP_erase_add hmem fun entry => entry.1.continues

theorem nwkChooseParent_lt {panidRef : ℕ} {best : ParentCandidate × ℕ}
    (hchoose : nwk.nwkChooseParent panidRef = some (some best)) :
    best.2 < nwk.candidates.length := by
  have hfold : ∀ (entries : List (ParentCandidate × ℕ)) ret,
      (∀ ne ∈ ret, ne.2 < nwk.candidates.length) →
      (∀ ne ∈ entries, ne.2 < nwk.candidates.length) →
      ∀ ne ∈ entries.foldl (nwk.chooseStep panidRef) ret,
        ne.2 < nwk.candidates.length := by
    intro entries
    induction entries with
    | nil => exact fun ret hret _ => hret
    | cons entry rest ih =>
      intro ret hret hentries
      refine ih _ ?_ fun ne hne => hentries ne (mem_cons_of_mem _ hne)
      have hentry := hentries entry mem_cons_self
      intro ne hne
      unfold chooseStep at hne
      split at hne
      · split at hne
        · split at hne
          · exact hret ne hne
          · exact some.inj hne ▸ hentry
        · exact some.inj hne ▸ hentry
      · exact hret ne hne
  have hbest : nwk.candidates.zipIdx.foldl (nwk.chooseStep panidRef) none =
      some best := by
    unfold nwkChooseParent at hchoose
    split at hchoose
    · rename_i hret
      rw [hret]
      exact some.inj hchoose
    · exact nomatch some.inj hchoose
    · contradiction
  refine hfold nwk.candidates.zipIdx none (fun ne hne => nomatch hne) ?_ best hbest
  intro ne hne
  exact (mem_zipIdx hne).2.1.trans_eq (zero_add _)

end RejoinNwk

structure BuffersMoved (nwk : RejoinNwk) (event : RejoinProcedureEvent) (next : RejoinNwk)
    (left : List ℕ) : Prop where
  held : ∀ buf, next.held buf + left.count buf = nwk.held buf + event.received.count buf
  alarm : next.alarms.length ≤ 1
  continuation : next.continuations ≤ 1

section Moves

variable {nwk next : RejoinNwk} {param : ℕ}
  {callback : RejoinCallback} {event : RejoinProcedureEvent}

theorem BuffersMoved.scheduled_iff (halarm : nwk.alarms.length ≤ 1)
    (hcallbacks : next.callbacks = nwk.callbacks ++ [(callback, param)])
    (halarms : next.alarms = nwk.alarms)
    (hreceived : event.received = [param]) :
    BuffersMoved nwk event next [] ↔ nwk.continuations + callback.continues.toNat ≤ 1 := by
  have hscheduled := RejoinNwk.continuations_append hcallbacks
  constructor
  · intro hmoved
    exact hscheduled ▸ hmoved.continuation
  · intro hle
    refine ⟨fun buf => ?_, ?_, hscheduled ▸ hle⟩
    · rw [RejoinNwk.held_append hcallbacks halarms, hreceived]
      rfl
    · rw [halarms]
      exact halarm

theorem BuffersMoved.rescheduled_iff
    {other : RejoinCallback} (halarm : nwk.alarms.length ≤ 1)
    (hcallbacks : next.callbacks =
      nwk.callbacks.erase (callback, param) ++ [(other, param)])
    (halarms : next.alarms = nwk.alarms)
    (hmem : (callback, param) ∈ nwk.callbacks)
    (hreceived : event.received = []) :
    BuffersMoved nwk event next [] ↔ nwk.continuations + other.continues.toNat ≤
        1 + callback.continues.toNat := by
  have hscheduled := @RejoinNwk.continuations_append
    { nwk with callbacks := nwk.callbacks.erase (callback, param) } next other
    param hcallbacks
  have htaken := RejoinNwk.continuations_take hmem
  constructor
  · intro hmoved
    have hle := hmoved.continuation
    omega
  · intro hle
    refine ⟨fun buf => ?_, ?_, ?_⟩
    · have hheld := @RejoinNwk.held_append
        { nwk with callbacks := nwk.callbacks.erase (callback, param) } next
        other param buf hcallbacks halarms
      rw [hheld, RejoinNwk.held_take hmem, hreceived]
    · rw [halarms]
      exact halarm
    · omega

theorem BuffersMoved.leaves
    (halarm : nwk.alarms.length ≤ 1) (hcont : nwk.continuations ≤ 1)
    (hmem : (callback, param) ∈ nwk.callbacks)
    (hreceived : event.received = []) :
    BuffersMoved nwk event { nwk with callbacks := nwk.callbacks.erase (callback, param) }
      [param] := by
  have htaken := RejoinNwk.continuations_take hmem
  refine ⟨fun buf => ?_, halarm, by omega⟩
  rw [RejoinNwk.held_take hmem, hreceived]
  rfl

theorem nlmeRejoinScanConfirm_cases {known : Option IeeeAddr}
    (hconfirm : nwk.nlmeRejoinScanConfirm param known = some next) :
    (nwk.findsNoParent = true ∧ next = nwk.rejoinFailed param) ∨
      (nwk.findsNoParent = false ∧ ∃ i ne, i < nwk.candidates.length ∧
        next = { nwk.setCandidate i ne with
          parent := some i }.schedule .nwkForward param) := by
  unfold RejoinNwk.nlmeRejoinScanConfirm at hconfirm
  unfold RejoinNwk.findsNoParent
  cases hpanid : nwk.panidRef nwk.extendedPanId with
  | none =>
    rw [hpanid] at hconfirm
    exact Or.inl ⟨rfl, (some.inj hconfirm).symm⟩
  | some panidRef =>
    rw [hpanid] at hconfirm
    obtain ⟨bestParent, hchoose, hrest⟩ := bind_eq_some_iff.mp hconfirm
    cases bestParent with
    | none => exact Or.inl ⟨decide_eq_true hchoose, (some.inj hrest).symm⟩
    | some best =>
      refine Or.inr ⟨?_, best.2, _, RejoinNwk.nwkChooseParent_lt hchoose,
        (some.inj hrest).symm⟩
      apply decide_eq_false
      rw [hchoose]
      exact fun h => nomatch some.inj h

theorem nlmeRejoinScanConfirm_of_findsNoParent
    (hnone : nwk.findsNoParent = true) (known : Option IeeeAddr) :
    nwk.nlmeRejoinScanConfirm param known =
      some (nwk.rejoinFailed param) := by
  unfold RejoinNwk.findsNoParent at hnone
  unfold RejoinNwk.nlmeRejoinScanConfirm
  cases hpanid : nwk.panidRef nwk.extendedPanId with
  | none => rfl
  | some panidRef =>
    rw [hpanid] at hnone
    dsimp only at hnone ⊢
    rw [of_decide_eq_true hnone]
    rfl

theorem moved_scanConfirm_iff {known : Option IeeeAddr} (halarm : nwk.alarms.length ≤ 1)
    (hcont : nwk.continuations ≤ 1)
    (hmem : (callback, param) ∈ nwk.callbacks)
    (hreceived : event.received = []) :
    (∀ next, RejoinNwk.nlmeRejoinScanConfirm
          { nwk with callbacks := nwk.callbacks.erase (callback, param) } param
          known = some next →
        BuffersMoved nwk event next []) ↔
      (nwk.findsNoParent = true → nwk.continuations ≤ callback.continues.toNat) := by
  constructor
  · intro hall hnone
    have hmoved := hall _ (@nlmeRejoinScanConfirm_of_findsNoParent
      { nwk with callbacks := nwk.callbacks.erase (callback, param) } param
      hnone known)
    have hle := (@BuffersMoved.rescheduled_iff nwk _ param callback event
      .nlmeJoinConfirm halarm (by rfl) (by rfl) hmem hreceived).mp hmoved
    have hone : continues .nlmeJoinConfirm = true := rfl
    rw [hone] at hle
    simp only [Bool.toNat_true] at hle
    omega
  · intro hle next hconfirm
    rcases nlmeRejoinScanConfirm_cases hconfirm with
      ⟨hnone, rfl⟩ | ⟨-, i, ne, -, rfl⟩
    · refine (@BuffersMoved.rescheduled_iff nwk _ param callback event
        .nlmeJoinConfirm halarm (by rfl) (by rfl) hmem hreceived).mpr ?_
      have hle := hle hnone
      have hone : continues .nlmeJoinConfirm = true := rfl
      rw [hone, Bool.toNat_true]
      omega
    · refine (@BuffersMoved.rescheduled_iff nwk _ param callback event
        .nwkForward halarm (by rfl) (by rfl) hmem hreceived).mpr ?_
      have hzero : continues .nwkForward = false := rfl
      rw [hzero, Bool.toNat_false]
      omega

theorem moved_mcpsDataConfirm_iff
    (halarm : nwk.alarms.length ≤ 1) (hcont : nwk.continuations ≤ 1)
    (hmem : (.nwkForward, param) ∈ nwk.callbacks)
    (hreceived : event.received = []) :
    BuffersMoved nwk event
        (RejoinNwk.mcpsDataConfirm { nwk with
          callbacks := nwk.callbacks.erase (.nwkForward, param) } param) [] ↔
      (nwk.state = .rejoin → nwk.alarms = []) := by
  unfold RejoinNwk.mcpsDataConfirm
  by_cases hstate : nwk.state = .rejoin
  · rw [if_pos hstate]
    have htaken := RejoinNwk.continuations_take hmem
    have hzero : continues .nwkForward = false := rfl
    rw [hzero, Bool.toNat_false, add_zero] at htaken
    have hheld : ∀ buf,
        RejoinNwk.held { nwk with
          callbacks := nwk.callbacks.erase (.nwkForward, param)
          alarms := nwk.alarms.tail ++ [param] } buf + nwk.alarms.count buf =
          nwk.held buf + nwk.alarms.tail.count buf := by
      intro buf
      have hmoved := @RejoinNwk.held_take nwk .nwkForward param buf hmem
      unfold RejoinNwk.held at hmoved ⊢
      dsimp only at hmoved ⊢
      rw [count_append]
      omega
    constructor
    · intro hmoved _
      cases halarms : nwk.alarms with
      | nil => rfl
      | cons first rest =>
        have hlost := hheld first
        have hsame : RejoinNwk.held { nwk with
            callbacks := nwk.callbacks.erase (.nwkForward, param)
            alarms := nwk.alarms.tail ++ [param] } first = nwk.held first := by
          have heq := hmoved.held first
          rw [hreceived] at heq
          exact heq
        rw [hsame, halarms, tail_cons, count_cons_self] at hlost
        omega
    · intro hnone
      have hempty := hnone hstate
      refine ⟨fun buf => ?_, ?_, ?_⟩
      · have hkept := hheld buf
        have hcount : nwk.alarms.count buf = nwk.alarms.tail.count buf := by
          rw [hempty]
          rfl
        rw [hcount] at hkept
        rw [hreceived]
        exact add_right_cancel hkept
      · rw [RejoinNwk.cancelTimeout]
        dsimp only
        rw [hempty]
        exact le_refl 1
      · exact htaken.trans_le hcont
  · rw [if_neg hstate]
    refine iff_of_true ?_ (fun h => absurd h hstate)
    refine (@BuffersMoved.rescheduled_iff nwk _ param .nwkForward event
      .nldeDataConfirm halarm (by rfl) (by rfl) hmem hreceived).mpr ?_
    exact hcont.trans (le_add_right 1 _)

theorem moved_cancelTimeout_iff (hreceived : event.received = [param])
    (hcallbacks : next.callbacks = nwk.callbacks ++ [(callback, param)])
    (halarms : next.alarms = nwk.alarms.tail)
    (halarm : nwk.alarms.length ≤ 1) :
    BuffersMoved nwk event next [] ↔ nwk.alarms = [] ∧
        nwk.continuations + callback.continues.toNat ≤ 1 := by
  have hscheduled := RejoinNwk.continuations_append hcallbacks
  have hheld : ∀ buf, next.held buf + nwk.alarms.count buf =
        nwk.held buf + [param].count buf + nwk.alarms.tail.count buf := by
    intro buf
    have hmoved := @RejoinNwk.held_append nwk (nwk.schedule callback param)
      callback param buf rfl rfl
    rw [← hmoved, RejoinNwk.held, RejoinNwk.held, hcallbacks, halarms]
    exact add_right_comm _ _ _
  constructor
  · intro hmoved
    refine ⟨?_, hscheduled ▸ hmoved.continuation⟩
    cases halarms : nwk.alarms with
    | nil => rfl
    | cons first rest =>
      have hlost := hheld first
      have heq := hmoved.held first
      rw [hreceived, count_nil, add_zero] at heq
      rw [heq, halarms, tail_cons, count_cons_self] at hlost
      omega
  · rintro ⟨hempty, hle⟩
    refine ⟨fun buf => ?_, ?_, hscheduled ▸ hle⟩
    · have hkept := hheld buf
      rw [hempty] at hkept
      rw [hreceived]
      exact hkept
    · rw [halarms, length_tail]
      omega

theorem nlmeRejoinResponse_spec
    {i : ℕ} {frame : RejoinResponseFrame} (hstate : nwk.state = .rejoin)
    (hparent : nwk.parent = some i) (hi : i < nwk.candidates.length) :
    ∃ callback next, callback.continues = true ∧
      nwk.nlmeRejoinResponse param frame = some (next, []) ∧
      next.callbacks = nwk.callbacks ++ [(callback, param)] ∧
      next.alarms = nwk.alarms.tail ∧
      (next.state = .rejoin → next.parent = nwk.parent ∧
          next.candidates.length = nwk.candidates.length) := by
  have hentry : nwk.candidates[i]? = some nwk.candidates[i] := List.getElem?_eq_getElem hi
  by_cases hcorrect : frame.isCorrect nwk.extendedAddress nwk.candidates[i].longAddr = true
  · refine ⟨.nlmeJoinConfirm, ((({ nwk with
      state := .idle
      candidates := [] }).schedule .nlmeJoinConfirm param).cancelTimeout),
      rfl, ?_, rfl, rfl, ?_⟩
    · simp [RejoinNwk.nlmeRejoinResponse, hstate, hparent, hentry, hcorrect]
    · intro hidle
      have hidle : NlmeState.idle = .rejoin := hidle
      contradiction
  · refine ⟨.nlmeRejoinScanConfirm, ((nwk.setCandidate i
      { nwk.candidates[i] with potentialParent := false }).schedule
        .nlmeRejoinScanConfirm param).cancelTimeout, rfl, ?_, rfl, rfl,
      fun _ => ⟨rfl, length_set⟩⟩
    simp [RejoinNwk.nlmeRejoinResponse, hstate, hparent, hentry, hcorrect]

theorem removeParentFromPotentialParents_eq
    {i : ℕ} (hparent : nwk.parent = some i) (hi : i < nwk.candidates.length) :
    ∃ ne, nwk.removeParentFromPotentialParents =
      some (nwk.setCandidate i ne) := by
  have hentry : nwk.candidates[i]? = some nwk.candidates[i] := List.getElem?_eq_getElem hi
  refine ⟨{ nwk.candidates[i] with potentialParent := false }, ?_⟩
  rw [RejoinNwk.removeParentFromPotentialParents, hparent]
  dsimp only
  rw [hentry]
  rfl

theorem moved_responseTimeout_iff {other : RejoinCallback} (halarm : nwk.alarms.length ≤ 1)
    (hmem : param ∈ nwk.alarms)
    (hcallbacks : next.callbacks = nwk.callbacks ++ [(other, param)])
    (halarms : next.alarms = nwk.alarms.erase param)
    (hreceived : event.received = []) :
    BuffersMoved nwk event next [] ↔ nwk.continuations + other.continues.toNat ≤ 1 := by
  have hscheduled := RejoinNwk.continuations_append hcallbacks
  constructor
  · intro hmoved
    exact hscheduled ▸ hmoved.continuation
  · intro hle
    refine ⟨fun buf => ?_, ?_, hscheduled ▸ hle⟩
    · have hheld := @RejoinNwk.held_append
        { nwk with alarms := nwk.alarms.erase param } next other param buf
        hcallbacks halarms
      have hcount : nwk.alarms.count buf =
          (nwk.alarms.erase param).count buf + [param].count buf := by
        rw [(perm_cons_erase hmem).count_eq, count_cons, count_singleton]
      rw [hheld, hreceived]
      unfold RejoinNwk.held
      dsimp only
      rw [hcount, count_nil]
      omega
    · rw [halarms]
      exact (length_erase_le ..).trans halarm

end Moves

namespace RejoinBufferRun

variable {run : RejoinBufferRun} {event : RejoinProcedureEvent} {param : ℕ}

theorem not_owned_of_unchosenRead
    (hread : (run.nwk.readsParent event && !run.chosen) = true) :
    ¬ ∀ next, run.step event = some next → next.Owned := by
  intro hall
  have howned := (hall _ (if_pos hread)).chosen
  contradiction

theorem owned_step_iff (hread : (run.nwk.readsParent event && !run.chosen) = false)
    (howned : run.Owned) :
    (∀ next, run.step event = some next → next.Owned) ↔
      ∀ next left, run.nwk.step event = some (next, left) →
        BuffersMoved run.nwk event next left := by
  obtain ⟨hheld, -, -, hchosen⟩ := howned
  have hstep : run.step event = _ := if_neg (Bool.eq_false_iff.mp hread)
  constructor
  · intro hall next left hnext
    have hafter := hall _ (by
      rw [hstep, hnext]
      rfl)
    refine ⟨fun buf => ?_, hafter.alarm, hafter.continuation⟩
    have hcount := hafter.held buf
    have hbefore := hheld buf
    simp only [count_append] at hcount
    omega
  · intro hall next hnext
    rw [hstep] at hnext
    obtain ⟨⟨nwk, left⟩, hnwk, heq⟩ := bind_eq_some_iff.mp hnext
    obtain rfl := some.inj heq
    obtain ⟨hmoved, halarm, hcont⟩ := hall nwk left hnwk
    refine ⟨fun buf => ?_, halarm, hcont, hchosen⟩
    have hcount := hmoved buf
    have hbefore := hheld buf
    simp only [count_append]
    omega

theorem owned_step_iff_of_not_reads
    (hread : run.nwk.readsParent event = false) (howned : run.Owned) :
    (∀ next, run.step event = some next → next.Owned) ↔
      ∀ next left, run.nwk.step event = some (next, left) →
        BuffersMoved run.nwk event next left := by
  apply owned_step_iff _ howned
  rw [hread]
  rfl

theorem owned_rejoin_iff (request : RejoinJoinRequest) (howned : run.Owned) :
    (∀ next, run.step (.rejoin param request) = some next → next.Owned) ↔
      run.Meets (.rejoin param request) := by
  rw [owned_step_iff_of_not_reads rfl howned]
  have hstep : ∀ next left, run.nwk.step (.rejoin param request) = some (next, left) ↔
        run.nwk.nlmeRejoin param request = next ∧ [] = left := by
    intro next left
    rw [RejoinNwk.step, some.injEq, Prod.mk.injEq]
  have hall : (∀ next left, run.nwk.step (.rejoin param request) = some (next, left) →
        BuffersMoved run.nwk (.rejoin param request) next left) ↔
      BuffersMoved run.nwk (.rejoin param request)
        (run.nwk.nlmeRejoin param request) [] := by
    constructor
    · exact fun h => h _ _ rfl
    · intro hmoved next left hnext
      obtain ⟨rfl, rfl⟩ := (hstep next left).mp hnext
      exact hmoved
  rw [hall, RejoinNwk.nlmeRejoin, Meets]
  by_cases hidle : run.nwk.state = .idle
  · rw [if_pos hidle]
    refine iff_of_true ?_ (fun h => absurd hidle h)
    exact (@BuffersMoved.scheduled_iff run.nwk _ param .mlmeScanRequest
      (.rejoin param request) howned.alarm (by rfl) (by rfl) rfl).mpr
        howned.continuation
  · rw [if_neg hidle, @BuffersMoved.scheduled_iff run.nwk _ param
      .nlmeJoinConfirm (.rejoin param request) howned.alarm (by rfl) (by rfl)
        rfl]
    have hone : continues .nlmeJoinConfirm = true := rfl
    rw [hone, Bool.toNat_true]
    constructor
    · intro hle _
      omega
    · intro hnone
      have hzero := hnone hidle
      omega

theorem owned_scanConfirm_iff (known : Option IeeeAddr) (howned : run.Owned) :
    (∀ next, run.step (.scanConfirm param known) = some next → next.Owned) ↔
      run.Meets (.scanConfirm param known) := by
  rw [owned_step_iff_of_not_reads rfl howned, Meets, RejoinNwk.step]
  by_cases hmem : (.mlmeScanRequest, param) ∈ run.nwk.callbacks
  · rw [RejoinNwk.take_of_mem hmem]
    by_cases hstate : run.nwk.state = .rejoin
    · have hiff := @moved_scanConfirm_iff run.nwk param .mlmeScanRequest
        (.scanConfirm param known) known howned.alarm howned.continuation hmem
        rfl
      have hzero : continues .mlmeScanRequest = false := rfl
      rw [hzero, Bool.toNat_false, le_zero] at hiff
      constructor
      · intro hall _ _
        refine hiff.mp fun next hnext => hall next [] ?_
        rw [bind_eq_bind, bind_some, if_pos hstate, hnext]
        rfl
      · intro hmeets next left hnext
        rw [bind_eq_bind, bind_some, if_pos hstate] at hnext
        obtain ⟨last, hlast, heq⟩ := bind_eq_some_iff.mp hnext
        obtain ⟨rfl, rfl⟩ := some_pair_inj heq
        exact hiff.mpr (hmeets hmem hstate) last hlast
    · refine iff_of_true ?_ (fun _ h => absurd h hstate)
      intro next left hnext
      rw [bind_eq_bind, bind_some, if_neg hstate] at hnext
      contradiction
  · refine iff_of_true ?_ (fun h => absurd h hmem)
    intro next left hnext
    rw [RejoinNwk.take, if_neg hmem] at hnext
    contradiction

theorem owned_dataConfirm_iff (howned : run.Owned) :
    (∀ next, run.step (.dataConfirm param) = some next → next.Owned) ↔
      run.Meets (.dataConfirm param) := by
  rw [owned_step_iff_of_not_reads rfl howned, Meets, RejoinNwk.step]
  by_cases hmem : (.nwkForward, param) ∈ run.nwk.callbacks
  · rw [RejoinNwk.take_of_mem hmem]
    have hiff := @moved_mcpsDataConfirm_iff run.nwk param (.dataConfirm param)
      howned.alarm howned.continuation hmem rfl
    constructor
    · exact fun hall _ => hiff.mp (hall _ [] rfl)
    · intro hmeets next left hnext
      obtain ⟨rfl, rfl⟩ := some_pair_inj hnext
      exact hiff.mpr (hmeets hmem)
  · refine iff_of_true ?_ (fun h => absurd h hmem)
    intro next left hnext
    rw [RejoinNwk.take, if_neg hmem] at hnext
    contradiction

theorem owned_rejoinResponse_iff (frame : RejoinResponseFrame) (howned : run.Owned)
    (hpointed : run.Pointed) :
    (∀ next, run.step (.rejoinResponse param frame) = some next →
        next.Owned) ↔ run.Meets (.rejoinResponse param frame) := by
  rw [Meets]
  by_cases hstate : run.nwk.state = .rejoin
  · by_cases hchosen : run.chosen = true
    · have hread : (run.nwk.readsParent (.rejoinResponse param frame) &&
          !run.chosen) = false := by
        rw [hchosen]
        exact Bool.and_false _
      obtain ⟨-, i, hparent, hi⟩ := hpointed hchosen
      obtain ⟨callback, last, hcontinues, hresponse, hcallbacks, halarms,
        -⟩ := @nlmeRejoinResponse_spec run.nwk param i frame hstate hparent hi
      have hmoved := moved_cancelTimeout_iff
        (by exact rfl : (RejoinProcedureEvent.rejoinResponse param
          frame).received = [param]) hcallbacks halarms howned.alarm
      rw [hcontinues, Bool.toNat_true] at hmoved
      rw [owned_step_iff hread howned, RejoinNwk.step, hresponse]
      constructor
      · intro hall _
        obtain ⟨hempty, hnone⟩ := hmoved.mp (hall _ _ rfl)
        exact ⟨hchosen, hempty, by omega⟩
      · intro hmeets next left hnext
        obtain ⟨rfl, rfl⟩ := some_pair_inj hnext
        obtain ⟨-, hempty, hnone⟩ := hmeets hstate
        exact hmoved.mpr ⟨hempty, by omega⟩
    · refine iff_of_false ?_ (fun h => hchosen (h hstate).1)
      apply not_owned_of_unchosenRead
      rw [Bool.eq_false_iff.mpr hchosen]
      exact (Bool.and_true _).trans (decide_eq_true hstate)
  · refine iff_of_true ?_ (fun h => absurd h hstate)
    have hread : run.nwk.readsParent (.rejoinResponse param frame) = false :=
      decide_eq_false hstate
    rw [owned_step_iff_of_not_reads hread howned, RejoinNwk.step,
      RejoinNwk.nlmeRejoinResponse, if_neg hstate]
    intro next left hnext
    obtain ⟨rfl, rfl⟩ := some_pair_inj hnext
    exact ⟨fun _ => rfl, howned.alarm, howned.continuation⟩

theorem owned_responseTimeout_iff (howned : run.Owned) (hpointed : run.Pointed) :
    (∀ next, run.step (.responseTimeout param) = some next → next.Owned) ↔
      run.Meets (.responseTimeout param) := by
  rw [Meets]
  by_cases hmem : param ∈ run.nwk.alarms
  · by_cases hchosen : run.chosen = true
    · have hread : (run.nwk.readsParent (.responseTimeout param) &&
          !run.chosen) = false := by
        rw [hchosen]
        exact Bool.and_false _
      obtain ⟨-, i, hparent, hi⟩ := hpointed hchosen
      rw [owned_step_iff hread howned, RejoinNwk.step, if_pos hmem]
      have hmeets : (param ∈ run.nwk.alarms → run.chosen = true ∧
            (run.nwk.rxOnWhenIdle = true → run.nwk.continuations = 0)) ↔
          (run.nwk.rxOnWhenIdle = true → run.nwk.continuations = 0) :=
        ⟨fun h => (h hmem).2, fun h _ => ⟨hchosen, h⟩⟩
      rw [hmeets]
      by_cases hidle : run.nwk.rxOnWhenIdle = true
      · obtain ⟨ne, hremove⟩ := @removeParentFromPotentialParents_eq
          { run.nwk with alarms := run.nwk.alarms.erase param } i hparent hi
        have htimeout : RejoinNwk.nlmeRejoinResponseTimeout
            { run.nwk with alarms := run.nwk.alarms.erase param } param =
            some ((RejoinNwk.setCandidate
              { run.nwk with alarms := run.nwk.alarms.erase param } i
                ne).schedule .nlmeRejoinScanConfirm param) := by
          rw [RejoinNwk.nlmeRejoinResponseTimeout]
          simp only [hremove]
          simp only [hparent, hidle, isSome_some, not_true_eq_false,
            and_false, if_false, if_true]
          rfl
        rw [htimeout]
        have hmoved := @moved_responseTimeout_iff run.nwk ((RejoinNwk.setCandidate
            { run.nwk with alarms := run.nwk.alarms.erase param } i
              ne).schedule .nlmeRejoinScanConfirm param) param
          (.responseTimeout param) .nlmeRejoinScanConfirm howned.alarm hmem
          rfl rfl rfl
        have hone : continues .nlmeRejoinScanConfirm = true := rfl
        rw [hone, Bool.toNat_true] at hmoved
        constructor
        · intro hall _
          have hle := hmoved.mp (hall _ _ rfl)
          omega
        · intro hnone next left hnext
          obtain ⟨rfl, rfl⟩ := some_pair_inj hnext
          have hzero := hnone hidle
          exact hmoved.mpr (by omega)
      · refine iff_of_true ?_ (fun h => absurd h hidle)
        intro next left hnext
        simp only [RejoinNwk.nlmeRejoinResponseTimeout, hparent, hidle,
          isSome_some, if_true] at hnext
        obtain ⟨rfl, rfl⟩ := some_pair_inj hnext
        refine (@moved_responseTimeout_iff run.nwk _ param
          (.responseTimeout param) .handlePollRequest howned.alarm hmem
          (by rfl) (by rfl) rfl).mpr ?_
        exact howned.continuation
    · refine iff_of_false ?_ (fun h => hchosen (h hmem).1)
      apply not_owned_of_unchosenRead
      rw [Bool.eq_false_iff.mpr hchosen]
      exact (Bool.and_true _).trans (decide_eq_true hmem)
  · refine iff_of_true ?_ (fun h => absurd h hmem)
    have hread : run.nwk.readsParent (.responseTimeout param) = false :=
      decide_eq_false hmem
    rw [owned_step_iff_of_not_reads hread howned, RejoinNwk.step, if_neg hmem]
    intro next left hnext
    contradiction

theorem owned_pollConfirm_iff
    (success : Bool) (howned : run.Owned) (hpointed : run.Pointed) :
    (∀ next, run.step (.pollConfirm param success) = some next →
        next.Owned) ↔ run.Meets (.pollConfirm param success) := by
  rw [Meets]
  by_cases hmem : (.handlePollRequest, param) ∈ run.nwk.callbacks
  · by_cases hstate : run.nwk.state = .rejoin
    · cases success with
      | true =>
        -- the buffer of a poll which succeeds is forgotten
        refine iff_of_false ?_ (fun h => nomatch (h hmem hstate).1)
        have hread : run.nwk.readsParent (.pollConfirm param true) =
            false := by
          simp [RejoinNwk.readsParent]
        rw [owned_step_iff_of_not_reads hread howned, RejoinNwk.step,
          RejoinNwk.take_of_mem hmem]
        intro hall
        have hmoved := hall
          { run.nwk with
            callbacks := run.nwk.callbacks.erase (.handlePollRequest, param) }
          [] (by simp [RejoinNwk.mlmePollConfirm, hstate])
        have hlost := hmoved.held param
        have htaken := @RejoinNwk.held_take run.nwk .handlePollRequest param param hmem
        have hone : [param].count param = 1 := count_singleton_self ..
        have hnone : (RejoinProcedureEvent.pollConfirm param true).received = [] := rfl
        rw [hone] at htaken
        rw [hnone] at hlost
        exact succ_ne_self _ (htaken.trans hlost.symm)
      | false =>
        by_cases hchosen : run.chosen = true
        · have hread : (run.nwk.readsParent (.pollConfirm param false) &&
              !run.chosen) = false := by
            rw [hchosen]
            exact Bool.and_false _
          obtain ⟨-, i, hparent, hi⟩ := hpointed hchosen
          obtain ⟨ne, hremove⟩ := @removeParentFromPotentialParents_eq
            { run.nwk with
              callbacks := run.nwk.callbacks.erase (.handlePollRequest, param)
              } i hparent hi
          have hconfirm : RejoinNwk.mlmePollConfirm
              { run.nwk with
                callbacks := run.nwk.callbacks.erase (.handlePollRequest, param) }
              param false =
              some ((RejoinNwk.setCandidate
                { run.nwk with
                  callbacks := run.nwk.callbacks.erase (.handlePollRequest, param) } i
                  ne).schedule .nlmeRejoinScanConfirm param) := by
            rw [RejoinNwk.mlmePollConfirm, if_pos hstate, hremove]
            rfl
          rw [owned_step_iff hread howned, RejoinNwk.step,
            RejoinNwk.take_of_mem hmem, bind_eq_bind,
            bind_some, hconfirm]
          have hmoved := @BuffersMoved.rescheduled_iff run.nwk ((RejoinNwk.setCandidate
              { run.nwk with
                callbacks := run.nwk.callbacks.erase (.handlePollRequest, param) } i
                ne).schedule .nlmeRejoinScanConfirm param) param
            .handlePollRequest (.pollConfirm param false)
            .nlmeRejoinScanConfirm howned.alarm rfl rfl hmem rfl
          have hone : continues .nlmeRejoinScanConfirm = true := rfl
          have hzero : continues .handlePollRequest = false := rfl
          rw [hone, hzero, Bool.toNat_true, Bool.toNat_false] at hmoved
          constructor
          · intro hall _ _
            have hle := hmoved.mp (hall _ _ rfl)
            exact ⟨rfl, hchosen, by omega⟩
          · intro hmeets next left hnext
            obtain ⟨rfl, rfl⟩ := some_pair_inj hnext
            obtain ⟨-, -, hnone⟩ := hmeets hmem hstate
            exact hmoved.mpr (by omega)
        · refine iff_of_false ?_ (fun h => hchosen (h hmem hstate).2.1)
          apply not_owned_of_unchosenRead
          simp [RejoinNwk.readsParent, hstate, hmem, hchosen]
    · refine iff_of_true ?_ (fun _ h => absurd h hstate)
      have hread : run.nwk.readsParent (.pollConfirm param success) =
          false := by
        simp [RejoinNwk.readsParent, hstate]
      rw [owned_step_iff_of_not_reads hread howned, RejoinNwk.step,
        RejoinNwk.take_of_mem hmem, bind_eq_bind, bind_some,
        RejoinNwk.mlmePollConfirm, if_neg hstate]
      intro next left hnext
      obtain ⟨rfl, rfl⟩ := some_pair_inj hnext
      refine (@BuffersMoved.rescheduled_iff run.nwk _ param .handlePollRequest
        (.pollConfirm param success) .nlmeSyncConfirm howned.alarm (by rfl)
        (by rfl) hmem rfl).mpr ?_
      exact howned.continuation.trans (le_add_right 1 _)
  · refine iff_of_true ?_ (fun h => absurd h hmem)
    have hread : run.nwk.readsParent (.pollConfirm param success) = false := by
      simp [RejoinNwk.readsParent, hmem]
    rw [owned_step_iff_of_not_reads hread howned, RejoinNwk.step,
      RejoinNwk.take, if_neg hmem]
    intro next left hnext
    contradiction

theorem owned_call (callback : RejoinCallback) (known : Option IeeeAddr)
    (howned : run.Owned) :
    ∀ next, run.step (.call callback param known) = some next → next.Owned := by
  have hread : run.nwk.readsParent (.call callback param known) = false := by
    cases callback <;> rfl
  rw [owned_step_iff_of_not_reads hread howned]
  intro next left hnext
  have hleaves : ∀ taken, run.nwk.take callback param = some taken →
      BuffersMoved run.nwk (.call callback param known) taken [param] := by
    intro taken htake
    obtain ⟨hmem, rfl⟩ := RejoinNwk.take_eq_some htake
    exact BuffersMoved.leaves howned.alarm howned.continuation hmem rfl
  cases callback with
  | mlmeScanRequest => contradiction
  | nwkForward => contradiction
  | handlePollRequest => contradiction
  | nlmeRejoinScanConfirm =>
    obtain ⟨taken, htake, hrest⟩ := bind_eq_some_iff.mp hnext
    obtain ⟨hmem, rfl⟩ := RejoinNwk.take_eq_some htake
    obtain ⟨last, hlast, heq⟩ := bind_eq_some_iff.mp hrest
    obtain ⟨rfl, rfl⟩ := some_pair_inj heq
    exact (@moved_scanConfirm_iff run.nwk param .nlmeRejoinScanConfirm
      (.call .nlmeRejoinScanConfirm param known) known howned.alarm
      howned.continuation hmem rfl).mpr (fun _ => howned.continuation) last
      hlast
  | nlmeJoinConfirm =>
    obtain ⟨taken, htake, heq⟩ := bind_eq_some_iff.mp hnext
    obtain ⟨rfl, rfl⟩ := some_pair_inj heq
    exact hleaves _ htake
  | nldeDataConfirm =>
    obtain ⟨taken, htake, heq⟩ := bind_eq_some_iff.mp hnext
    obtain ⟨rfl, rfl⟩ := some_pair_inj heq
    exact hleaves _ htake
  | nlmeSyncConfirm =>
    obtain ⟨taken, htake, heq⟩ := bind_eq_some_iff.mp hnext
    obtain ⟨rfl, rfl⟩ := some_pair_inj heq
    exact hleaves _ htake

theorem owned_undelivered (howned : run.Owned) :
    ∀ next, run.step (.undelivered param) = some next → next.Owned := by
  rw [owned_step_iff_of_not_reads rfl howned]
  intro next left hnext
  obtain ⟨taken, htake, heq⟩ := bind_eq_some_iff.mp hnext
  obtain ⟨rfl, rfl⟩ := some_pair_inj heq
  obtain ⟨hmem, rfl⟩ := RejoinNwk.take_eq_some htake
  exact BuffersMoved.leaves howned.alarm howned.continuation hmem rfl

theorem owned_poll (howned : run.Owned) :
    ∀ next, run.step (.poll param) = some next → next.Owned := by
  rw [owned_step_iff_of_not_reads rfl howned]
  intro next left hnext
  obtain ⟨rfl, rfl⟩ := some_pair_inj hnext
  exact (@BuffersMoved.scheduled_iff run.nwk _ param .handlePollRequest
    (.poll param) howned.alarm (by rfl) (by rfl) rfl).mpr howned.continuation

theorem owned_beacons (candidates : List ParentCandidate) (panidRef : ExtPanId → Option ℕ)
    (howned : run.Owned) :
    ∀ next, run.step (.beacons candidates panidRef) = some next → next.Owned := by
  rw [owned_step_iff_of_not_reads rfl howned, RejoinNwk.step]
  intro next left hnext
  split at hnext
  · obtain ⟨rfl, rfl⟩ := some_pair_inj hnext
    exact ⟨fun _ => rfl, howned.alarm, howned.continuation⟩
  · contradiction

theorem owned_other (state : NlmeState) (parent : Option ℕ) (updateId : UInt8)
    (howned : run.Owned) :
    ∀ next, run.step (.other state parent updateId) = some next → next.Owned := by
  rw [owned_step_iff_of_not_reads rfl howned, RejoinNwk.step]
  intro next left hnext
  split at hnext
  · obtain ⟨rfl, rfl⟩ := some_pair_inj hnext
    exact ⟨fun _ => rfl, howned.alarm, howned.continuation⟩
  · contradiction

theorem owned_iff_meets (howned : run.Owned) (hpointed : run.Pointed) :
    (∀ next, run.step event = some next → next.Owned) ↔ run.Meets event := by
  cases event with
  | rejoin param request => exact owned_rejoin_iff request howned
  | beacons candidates panidRef =>
    exact iff_of_true (owned_beacons candidates panidRef howned) trivial
  | scanConfirm param known => exact owned_scanConfirm_iff known howned
  | call callback param known =>
    exact iff_of_true (owned_call callback known howned) trivial
  | undelivered param => exact iff_of_true (owned_undelivered howned) trivial
  | dataConfirm param => exact owned_dataConfirm_iff howned
  | rejoinResponse param frame => exact owned_rejoinResponse_iff frame howned hpointed
  | responseTimeout param => exact owned_responseTimeout_iff howned hpointed
  | poll param => exact iff_of_true (owned_poll howned) trivial
  | pollConfirm param success => exact owned_pollConfirm_iff success howned hpointed
  | other state parent updateId =>
    exact iff_of_true (owned_other state parent updateId howned) trivial

end RejoinBufferRun

/-! ## The parent which is pointed to -/

structure ParentKept (nwk next : RejoinNwk) : Prop where
  state : nwk.state = next.state
  parent : next.parent = nwk.parent
  candidates : nwk.candidates.length ≤ next.candidates.length

section Pointers

variable {nwk next : RejoinNwk} {param : ℕ} {callback : RejoinCallback}

theorem ParentKept.removeParent
    (hremove : nwk.removeParentFromPotentialParents = some next) :
    ParentKept nwk next := by
  unfold RejoinNwk.removeParentFromPotentialParents at hremove
  split at hremove
  · obtain rfl := some.inj hremove
    exact ⟨rfl, rfl, le_refl _⟩
  · obtain ⟨parent, -, heq⟩ := bind_eq_some_iff.mp hremove
    obtain rfl := some.inj heq
    exact ⟨rfl, rfl, length_set.ge⟩

theorem ParentKept.responseTimeout
    (htimeout : nwk.nlmeRejoinResponseTimeout param = some next) :
    ParentKept nwk next := by
  unfold RejoinNwk.nlmeRejoinResponseTimeout at htimeout
  split at htimeout
  · obtain rfl := some.inj htimeout
    exact ⟨rfl, rfl, le_refl _⟩
  · split at htimeout
    · obtain ⟨removed, hremove, heq⟩ := bind_eq_some_iff.mp htimeout
      obtain rfl := some.inj heq
      obtain ⟨hstate, hparent, hlength⟩ := ParentKept.removeParent hremove
      exact ⟨hstate, hparent, hlength⟩
    · obtain rfl := some.inj htimeout
      exact ⟨rfl, rfl, le_refl _⟩

theorem ParentKept.pollConfirm {success : Bool}
    (hconfirm : nwk.mlmePollConfirm param success = some next) :
    ParentKept nwk next := by
  unfold RejoinNwk.mlmePollConfirm at hconfirm
  split at hconfirm
  · split at hconfirm
    · obtain rfl := some.inj hconfirm
      exact ⟨rfl, rfl, le_refl _⟩
    · obtain ⟨removed, hremove, heq⟩ := bind_eq_some_iff.mp hconfirm
      obtain rfl := some.inj heq
      obtain ⟨hstate, hparent, hlength⟩ := ParentKept.removeParent hremove
      exact ⟨hstate, hparent, hlength⟩
  · obtain rfl := some.inj hconfirm
    exact ⟨rfl, rfl, le_refl _⟩

theorem ParentKept.dataConfirm :
    ParentKept nwk (nwk.mcpsDataConfirm param) := by
  unfold RejoinNwk.mcpsDataConfirm
  split
  · exact ⟨rfl, rfl, le_refl _⟩
  · exact ⟨rfl, rfl, le_refl _⟩

theorem nlmeRejoinScanConfirm_pointed {known : Option IeeeAddr}
    (hconfirm : nwk.nlmeRejoinScanConfirm param known = some next)
    (hstate : next.state = .rejoin) :
    ∃ i, next.parent = some i ∧ i < next.candidates.length := by
  rcases nlmeRejoinScanConfirm_cases hconfirm with
    ⟨-, rfl⟩ | ⟨-, i, ne, hi, rfl⟩
  · have hidle : NlmeState.idle = .rejoin := hstate
    contradiction
  · exact ⟨i, rfl, hi.trans_eq length_set.symm⟩

end Pointers

namespace RejoinBufferRun

variable {run next : RejoinBufferRun} {event : RejoinProcedureEvent}

theorem Pointed.of_kept {nwk : RejoinNwk} (hpointed : run.Pointed)
    (hkept : ParentKept run.nwk nwk) (hchosen : run.chosen = true) :
    ∃ i, nwk.parent = some i ∧ i < nwk.candidates.length := by
  obtain ⟨-, i, hparent, hi⟩ := hpointed hchosen
  exact ⟨i, hkept.parent.trans hparent, hi.trans_le hkept.candidates⟩

theorem pointed_nwk_step {nwk : RejoinNwk} {left : List ℕ} (hpointed : run.Pointed)
    (hstep : run.nwk.step event = some (nwk, left))
    (hstate : nwk.state = .rejoin)
    (hchosen : event.isScanConfirm = true ∨ run.chosen = true) :
    ∃ i, nwk.parent = some i ∧ i < nwk.candidates.length := by
  cases event with
  | rejoin param request =>
    have hchosen := hchosen.resolve_left Bool.false_ne_true
    obtain ⟨rfl, -⟩ := some_pair_inj hstep
    have hbusy : run.nwk.state ≠ .idle := by
      rw [(hpointed hchosen).1]
      exact NlmeState.noConfusion
    rw [RejoinNwk.nlmeRejoin, if_neg hbusy]
    exact (hpointed hchosen).2
  | beacons candidates panidRef =>
    have hchosen := hchosen.resolve_left Bool.false_ne_true
    rw [RejoinNwk.step] at hstep
    split at hstep
    · rename_i hle
      obtain ⟨rfl, -⟩ := some_pair_inj hstep
      exact hpointed.of_kept ⟨rfl, rfl, hle⟩ hchosen
    · contradiction
  | scanConfirm param known =>
    obtain ⟨taken, -, hrest⟩ := bind_eq_some_iff.mp hstep
    split at hrest
    · obtain ⟨last, hlast, heq⟩ := bind_eq_some_iff.mp hrest
      obtain ⟨rfl, -⟩ := some_pair_inj heq
      exact nlmeRejoinScanConfirm_pointed hlast hstate
    · contradiction
  | call callback param known =>
    have hkept : ∀ taken, run.nwk.take callback param = some taken →
        ParentKept run.nwk taken := by
      intro taken htake
      obtain ⟨-, rfl⟩ := RejoinNwk.take_eq_some htake
      exact ⟨rfl, rfl, le_refl _⟩
    cases callback with
    | mlmeScanRequest => contradiction
    | nwkForward => contradiction
    | handlePollRequest => contradiction
    | nlmeRejoinScanConfirm =>
      obtain ⟨taken, -, hrest⟩ := bind_eq_some_iff.mp hstep
      obtain ⟨last, hlast, heq⟩ := bind_eq_some_iff.mp hrest
      obtain ⟨rfl, -⟩ := some_pair_inj heq
      exact nlmeRejoinScanConfirm_pointed hlast hstate
    | nlmeJoinConfirm =>
      obtain ⟨taken, htake, heq⟩ := bind_eq_some_iff.mp hstep
      obtain ⟨rfl, -⟩ := some_pair_inj heq
      exact hpointed.of_kept (hkept _ htake) (hchosen.resolve_left Bool.false_ne_true)
    | nldeDataConfirm =>
      obtain ⟨taken, htake, heq⟩ := bind_eq_some_iff.mp hstep
      obtain ⟨rfl, -⟩ := some_pair_inj heq
      exact hpointed.of_kept (hkept _ htake) (hchosen.resolve_left Bool.false_ne_true)
    | nlmeSyncConfirm =>
      obtain ⟨taken, htake, heq⟩ := bind_eq_some_iff.mp hstep
      obtain ⟨rfl, -⟩ := some_pair_inj heq
      exact hpointed.of_kept (hkept _ htake) (hchosen.resolve_left Bool.false_ne_true)
  | undelivered param =>
    obtain ⟨taken, htake, heq⟩ := bind_eq_some_iff.mp hstep
    obtain ⟨rfl, -⟩ := some_pair_inj heq
    obtain ⟨-, rfl⟩ := RejoinNwk.take_eq_some htake
    exact hpointed.of_kept ⟨rfl, rfl, le_refl _⟩ (hchosen.resolve_left Bool.false_ne_true)
  | dataConfirm param =>
    obtain ⟨taken, htake, heq⟩ := bind_eq_some_iff.mp hstep
    obtain ⟨rfl, -⟩ := some_pair_inj heq
    obtain ⟨-, rfl⟩ := RejoinNwk.take_eq_some htake
    have hkept := @ParentKept.dataConfirm { run.nwk with
      callbacks := run.nwk.callbacks.erase (.nwkForward, param) } param
    exact hpointed.of_kept ⟨hkept.state, hkept.parent, hkept.candidates⟩
      (hchosen.resolve_left Bool.false_ne_true)
  | rejoinResponse param frame =>
    obtain ⟨hrejoin, i, hparent, hi⟩ := hpointed (hchosen.resolve_left Bool.false_ne_true)
    obtain ⟨callback, last, -, hresponse, -, -, hkept⟩ :=
      @nlmeRejoinResponse_spec run.nwk param i frame hrejoin hparent hi
    obtain ⟨rfl, -⟩ := some_pair_inj (hresponse.symm.trans hstep)
    obtain ⟨hsame, hlength⟩ := hkept hstate
    exact ⟨i, hsame.trans hparent, hi.trans_eq hlength.symm⟩
  | responseTimeout param =>
    rw [RejoinNwk.step] at hstep
    split at hstep
    · obtain ⟨last, htimeout, heq⟩ := bind_eq_some_iff.mp hstep
      obtain ⟨rfl, -⟩ := some_pair_inj heq
      obtain ⟨hsame, hparent, hlength⟩ := ParentKept.responseTimeout htimeout
      exact hpointed.of_kept ⟨hsame, hparent, hlength⟩
        (hchosen.resolve_left Bool.false_ne_true)
    · contradiction
  | poll param =>
    obtain ⟨rfl, -⟩ := some_pair_inj hstep
    exact hpointed.of_kept ⟨rfl, rfl, le_refl _⟩ (hchosen.resolve_left Bool.false_ne_true)
  | pollConfirm param success =>
    obtain ⟨taken, htake, hrest⟩ := bind_eq_some_iff.mp hstep
    obtain ⟨last, hconfirm, heq⟩ := bind_eq_some_iff.mp hrest
    obtain ⟨rfl, -⟩ := some_pair_inj heq
    obtain ⟨-, rfl⟩ := RejoinNwk.take_eq_some htake
    obtain ⟨hsame, hparent, hlength⟩ := ParentKept.pollConfirm hconfirm
    exact hpointed.of_kept ⟨hsame, hparent, hlength⟩
      (hchosen.resolve_left Bool.false_ne_true)
  | other state parent updateId =>
    rw [RejoinNwk.step] at hstep
    split at hstep
    · rename_i hidle
      exact absurd (hpointed (hchosen.resolve_left Bool.false_ne_true)).1 hidle.1
    · contradiction

theorem pointed_step (hpointed : run.Pointed) (hstep : run.step event = some next) :
    next.Pointed := by
  unfold step at hstep
  split at hstep
  · obtain rfl := some.inj hstep
    exact hpointed
  · obtain ⟨⟨nwk, left⟩, hnwk, heq⟩ := bind_eq_some_iff.mp hstep
    obtain rfl := some.inj heq
    intro hchosen
    rw [Bool.and_eq_true, Bool.or_eq_true] at hchosen
    have hstate := of_decide_eq_true hchosen.1
    exact ⟨hstate, pointed_nwk_step hpointed hnwk hstate hchosen.2⟩

def start (nwk : RejoinNwk) : RejoinBufferRun where
  nwk := { nwk with callbacks := [], alarms := [] }
  chosen := false
  received := []
  left := []
  unchosenRead := false

theorem owned_start (nwk : RejoinNwk) : (start nwk).Owned :=
  ⟨fun _ => rfl, zero_le _, zero_le _, rfl⟩

theorem pointed_start (nwk : RejoinNwk) : (start nwk).Pointed :=
  fun hchosen => absurd hchosen Bool.false_ne_true

/-- The buffers are owned and the rejoin has one continuation exactly as long
as its events come in good order. -/
theorem everyState_owned_iff (nwk : RejoinNwk) (events : List RejoinProcedureEvent) :
    EveryState step Owned (start nwk) events ↔
      AlongRun step Meets (start nwk) events :=
  @everyState_iff_alongRun _ _ step Meets Owned Pointed
    (fun _ _ howned hpointed => owned_iff_meets howned hpointed)
    (fun _ _ _ _ hpointed _ hstep => pointed_step hpointed hstep)
    (start nwk) events (owned_start nwk) (pointed_start nwk)

def rejoiningRouter : RejoinNwk where
  role := .router
  state := .idle
  candidates := [{
    shortAddr := 1
    longAddr := .zero
    panidRef := 0
    lqi := 255
    updateId := 0
    depth := 1
    stackProfile := 1
    permitJoining := true
    routerCapacity := true
    endDeviceCapacity := true
    potentialParent := true }]
  panidRef := fun _ => some 0
  extendedPanId := 7
  isRouter := true
  parent := none
  updateId := 0
  rxOnWhenIdle := true
  extendedAddress := .zero
  callbacks := []
  alarms := []

def refusal : RejoinResponseFrame where
  networkAddr := 5
  success := false
  sourceIeee := true
  destinationIeee := false
  dstIeeeAddr := .zero
  srcIeeeAddr := .zero

/-- The response comes while its timeout runs: the buffer of the alarm is
lost. -/
theorem not_everyState_owned_answered : ¬ EveryState step Owned (start rejoiningRouter)
      [.rejoin 1 ⟨7, true⟩, .scanConfirm 1 none, .dataConfirm 1,
        .rejoinResponse 2 refusal] := by
  intro hevery
  have hobserved : (TransitionSystem.run step (start rejoiningRouter)
        [.rejoin 1 ⟨7, true⟩, .scanConfirm 1 none, .dataConfirm 1,
          .rejoinResponse 2 refusal]).map (fun last =>
            (last.received.count 1, last.nwk.held 1, last.left.count 1)) =
        some (1, 0, 0) := by
    decide +kernel
  obtain ⟨last, hrun, heq⟩ := map_eq_some_iff.mp hobserved
  obtain ⟨hreceived, heq⟩ := Prod.mk.inj heq
  obtain ⟨hheld, hleft⟩ := Prod.mk.inj heq
  have hcount := (hevery.last hrun).held 1
  rw [hreceived, hheld, hleft] at hcount
  exact absurd hcount (by decide)

end RejoinBufferRun

end Zboss
