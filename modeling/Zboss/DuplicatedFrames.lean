import Zboss.CustodyPaths

/-!
# Frames which are indicated and sent again

A frame which goes both up and on waits in `wait_alloc` for a second buffer.
Its arrival requests one, and `new_buffer_allocated` requests another one as
long as frames are left, although each of them has made a request of its own.
-/

namespace Zboss

open Option List NwkMain TransitionSystem

def bufferRequest : NwkOutput := .getBufDelayed .newBufferAllocated true

def NwkOutput.scheduled (func : NwkCallback) : NwkOutput → Option ℕ
  | .schedule other param => if other = func then some param else none
  | _ => none

/-- `waited` are the frames for which buffers have been granted, as they were
then; `indicated` and `forwarded` are the buffers which `new_buffer_allocated`
has scheduled, with what it leaves in them. -/
structure DupRun where
  nwk : NwkMain
  requests : ℕ
  arrived : List ℕ
  granted : List ℕ
  waited : List NwkPacket
  indicated : List (ℕ × NwkPacket)
  forwarded : List (ℕ × NwkPacket)

/-- `accepted` tells whether the pool takes a request, if there is one.  A granted
buffer is none of those which wait.  Other code does not touch `wait_alloc`. -/
inductive DupEvent where
  | frame (param : ℕ) (packet : NwkPacket) (lqi : UInt8)
      (unsecure : NwkMain.Unsecure) (accepted : Bool)
  | grant (param : ℕ) (accepted : Bool)
  | other (next : NwkMain)

namespace DupRun

def requested (accepted : Bool) (outputs : List NwkOutput) : ℕ :=
  if accepted then outputs.count bufferRequest else 0

def scheduled (nwk : NwkMain) (func : NwkCallback) (outputs : List NwkOutput) :
    List (ℕ × NwkPacket) :=
  (outputs.filterMap (NwkOutput.scheduled func)).map fun param =>
    (param, nwk.packets param)

def step (run : DupRun) : DupEvent → Option DupRun
  | .frame param packet lqi unsecure accepted => do
      let (nwk, outputs) ←
        run.nwk.zbMcpsDataIndication param packet lqi unsecure
      some
        { run with
          nwk := nwk
          requests := run.requests + requested accepted outputs
          arrived := run.arrived ++ if bufferRequest ∈ outputs then [param] else [] }
  | .grant param accepted =>
      if run.requests = 0 ∨ run.nwk.waitAlloc.holding (· == param) ≠ 0 then none
      else
        let (nwk, outputs) := run.nwk.newBufferAllocated param
        some
          { nwk := nwk
            requests := run.requests - 1 + requested accepted outputs
            arrived := run.arrived
            granted := run.granted ++ [param]
            waited := run.waited ++ (scheduled run.nwk .nwkForward outputs).map Prod.snd
            indicated := run.indicated ++ scheduled nwk .nwkFrameIndication outputs
            forwarded := run.forwarded ++ scheduled nwk .nwkForward outputs }
  | .other next => some { run with nwk := { next with waitAlloc := run.nwk.waitAlloc } }

/-- There is a request for each frame which waits, the frames are at the
beginning of the array, each which has arrived waits or has been sent again, what
is indicated are copies of the frames which have waited, and the copies are in
the granted buffers. -/
structure Paired (run : DupRun) : Prop where
  requests : run.requests = run.nwk.waitAlloc.cnt.toNat
  order : run.nwk.WaitsInOrder
  once : ∀ buf, run.arrived.count buf = run.nwk.waitAlloc.holding (· == buf) +
      (run.forwarded.map Prod.fst).count buf
  copies : run.indicated.map Prod.snd = run.waited
  sent : run.forwarded.map Prod.snd = run.waited.map fun frame =>
    { frame with handle := nwkInternalNsduHandle }
  used : run.granted = run.indicated.map Prod.fst

/-- No request is refused.  A buffer which is granted is not the first one of
the pool, and is for the only frame which waits, unless the request for
another one is refused. -/
def Meets (run : DupRun) : DupEvent → Prop
  | .frame param packet lqi unsecure accepted =>
      accepted = true ∨ ∀ result ∈ run.nwk.zbMcpsDataIndication param packet lqi unsecure,
          bufferRequest ∉ result.2
  | .grant param accepted =>
      run.requests ≠ 0 → run.nwk.waitAlloc.holding (· == param) = 0 →
        param ≠ 0 ∧ (run.nwk.waitAlloc.cnt.toNat ≤ 1 ∨ accepted = false)
  | .other _ => True

instance (run : DupRun) (event : DupEvent) : Decidable (run.Meets event) := by
  unfold Meets
  split <;> infer_instance

section Frames

variable {nwk next : NwkMain} {param : ℕ} {outputs : List NwkOutput}

def NoneWaits (nwk : NwkMain) (result : NwkMain × List NwkOutput) : Prop :=
  result.1.waitAlloc = nwk.waitAlloc ∧ bufferRequest ∉ result.2

def Waits (nwk : NwkMain) (param : ℕ) (result : NwkMain × List NwkOutput) :
    Prop :=
  (∃ i, nwk.waitAlloc.freeEnt = some i ∧
      result.1.waitAlloc = nwk.waitAlloc.takeEnt i param) ∧
    result.2.count bufferRequest = 1

theorem dispose_waits (nwk : NwkMain) (param : ℕ) (disposed : NwkMain.Disposition) :
    NoneWaits nwk (nwk.dispose param disposed) ∨
      Waits nwk param (nwk.dispose param disposed) := by
  cases disposed with
  | indicate => exact Or.inl ⟨rfl, by simp [dispose, bufferRequest]⟩
  | retransmit => exact Or.inl ⟨rfl, by simp [dispose, bufferRequest]⟩
  | indicateAndRetransmit =>
    rw [dispose]
    cases hfree : nwk.waitAlloc.freeEnt with
    | some i => exact Or.inr ⟨⟨i, hfree, rfl⟩, rfl⟩
    | none => exact Or.inl ⟨rfl, by simp [bufferRequest]⟩
  | drop => exact Or.inl ⟨rfl, by simp [dispose, bufferRequest]⟩

theorem NoneWaits.wrap {mid : NwkMain} {before : List NwkOutput}
    (hbefore : mid.waitAlloc = nwk.waitAlloc) (hnone : bufferRequest ∉ before)
    (hends : NoneWaits mid (next, outputs) ∨ Waits mid param (next, outputs)) :
    NoneWaits nwk (next, before ++ outputs) ∨
      Waits nwk param (next, before ++ outputs) := by
  rcases hends with ⟨hsame, hmem⟩ | ⟨⟨i, hfree, htaken⟩, hcount⟩
  · refine Or.inl ⟨hsame.trans hbefore, ?_⟩
    exact fun h => (mem_append.mp h).elim hnone hmem
  · refine Or.inr ⟨⟨i, ?_, ?_⟩, ?_⟩
    · rw [← hbefore]
      exact hfree
    · rw [← hbefore]
      exact htaken
    · change (before ++ outputs).count bufferRequest = 1
      rw [count_append, count_eq_zero.mpr hnone, Nat.zero_add]
      exact hcount

theorem handleFrame_waits {lqi : UInt8} {unsecure : NwkMain.Unsecure}
    (hhandle : nwk.handleFrame param lqi unsecure = some (next, outputs)) :
    NoneWaits nwk (next, outputs) ∨ Waits nwk param (next, outputs) := by
  obtain ⟨⟨zg, ret⟩, -, hrest⟩ := bind_eq_some_iff.mp hhandle
  cases ret with
  | error _ =>
    obtain ⟨rfl, rfl⟩ := some_pair_inj hrest
    exact Or.inl ⟨rfl, by simp [bufferRequest]⟩
  | ok _ =>
    dsimp only at hrest
    obtain ⟨zg', hlqi⟩ :=
      updateLqi_eq ((nwk.setZg zg).setPacket param
        { nwk.packets param with radius := (nwk.packets param).radius - 1 })
        (nwk.packets param).srcAddr lqi
    rw [hlqi] at hrest
    rw [← some.inj hrest]
    exact dispose_waits _ param _

theorem markPassiveAck_waitAlloc {packet : NwkPacket} {result : NwkMain × List NwkOutput}
    (hmark : nwk.markPassiveAck packet = some result) :
    result.1.waitAlloc = nwk.waitAlloc ∧ bufferRequest ∉ result.2 := by
  refine ⟨?_, ?_⟩
  · unfold markPassiveAck at hmark
    dsimp only at hmark
    split at hmark
    · split at hmark
      · split at hmark
        · split at hmark
          · obtain rfl := some.inj hmark
            rfl
          · obtain rfl := some.inj hmark
            rfl
        · contradiction
      · obtain rfl := some.inj hmark
        rfl
    · obtain rfl := some.inj hmark
      rfl
  · rcases (markPassiveAck_spec hmark).outputs with h | ⟨buf, h⟩
    · simp [h]
    · simp [h, bufferRequest]

theorem zbMcpsDataIndication_waits
    {packet : NwkPacket} {lqi : UInt8} {unsecure : NwkMain.Unsecure}
    {result : NwkMain × List NwkOutput}
    (hindication : nwk.zbMcpsDataIndication param packet lqi unsecure = some result) :
    NoneWaits nwk result ∨ Waits nwk param result := by
  have hfree : bufferRequest ∉ [NwkOutput.freeBuf param] := by simp [bufferRequest]
  cases zbMcpsDataIndication_cases hindication with
  | bad _ => exact Or.inl ⟨rfl, hfree⟩
  | repeated _ hmark _ =>
    obtain ⟨hsame, hnone⟩ := markPassiveAck_waitAlloc hmark
    exact NoneWaits.wrap hsame hnone (Or.inl ⟨rfl, hfree⟩)
  | full _ hmark _ _ =>
    obtain ⟨hsame, hnone⟩ := markPassiveAck_waitAlloc hmark
    exact NoneWaits.wrap hsame hnone (Or.inl ⟨rfl, hfree⟩)
  | broadcast _ hmark _ hadd hhandle _ =>
    obtain ⟨hsame, hnone⟩ := markPassiveAck_waitAlloc hmark
    obtain ⟨hstarted, i, -, hrecorded⟩ := addBtr_eq_some hadd
    refine NoneWaits.wrap ?_ ?_ (handleFrame_waits hhandle)
    · rw [hrecorded]
      exact hsame
    · intro hmem
      rcases mem_append.mp hmem with hmem | hmem
      · exact hnone hmem
      · rw [hstarted] at hmem
        unfold startBtrExpiry at hmem
        split at hmem <;> simp [bufferRequest] at hmem
  | unicast _ hhandle =>
    exact @NoneWaits.wrap nwk _ param _ (nwk.receivedFrame param packet) []
      rfl not_mem_nil (handleFrame_waits hhandle)

end Frames

section Steps

variable {run next : DupRun}

theorem count_eq_of_none {outputs : List NwkOutput}
    (hnone : bufferRequest ∉ outputs) (accepted : Bool) :
    requested accepted outputs = 0 := by
  unfold requested
  split
  · exact count_eq_zero.mpr hnone
  · rfl

theorem mem_of_count {outputs : List NwkOutput}
    (hcount : outputs.count bufferRequest = 1) : bufferRequest ∈ outputs := by
  rw [← count_pos_iff, hcount]
  exact Nat.one_pos

theorem toNat_cnt_takeEnt {nwk : NwkMain} (horder : nwk.WaitsInOrder) (i param : ℕ) :
    (nwk.waitAlloc.takeEnt i param).cnt.toNat = nwk.waitAlloc.cnt.toNat + 1 := by
  have hle := horder.cnt
  have hsize : nwkWaitAllocTableSize = 5 := rfl
  have hone : UInt8.toNat 1 = 1 := rfl
  change (nwk.waitAlloc.cnt + 1).toNat = _
  rw [UInt8.toNat_add, hone]
  omega

theorem toNat_cnt_putEnt {nwk : NwkMain} (hsome : nwk.waitAlloc.cnt ≠ 0) (i : ℕ) :
    (nwk.waitAlloc.putEnt i).cnt.toNat = nwk.waitAlloc.cnt.toNat - 1 := by
  have hpos : nwk.waitAlloc.cnt.toNat ≠ 0 := fun hzero => hsome (UInt8.toNat_inj.mp hzero)
  have hlt := nwk.waitAlloc.cnt.toNat_lt
  have hone : UInt8.toNat 1 = 1 := rfl
  change (nwk.waitAlloc.cnt - 1).toNat = _
  rw [UInt8.toNat_sub, hone]
  omega

theorem paired_frame_iff {param : ℕ} {packet : NwkPacket} {lqi : UInt8}
    {unsecure : NwkMain.Unsecure} {accepted : Bool} (hpaired : run.Paired) :
    (∀ next, run.step (.frame param packet lqi unsecure accepted) = some next →
        next.Paired) ↔
      run.Meets (.frame param packet lqi unsecure accepted) := by
  constructor
  · intro hall
    refine or_iff_not_imp_left.mpr fun hrefused => ?_
    rintro ⟨nwk, outputs⟩ hindication hmem
    have hnext := hall _ (by
      rw [step, mem_def.mp hindication]
      rfl)
    rcases zbMcpsDataIndication_waits (mem_def.mp hindication) with
      ⟨-, hnone⟩ | ⟨⟨i, -, htaken⟩, -⟩
    · exact hnone hmem
    · have hrequests := hnext.requests
      have hcnt := toNat_cnt_takeEnt hpaired.order i param
      dsimp only at htaken hrequests
      rw [htaken, hcnt, requested, if_neg hrefused, hpaired.requests] at hrequests
      omega
  · intro hmeets next hstep
    obtain ⟨⟨nwk, outputs⟩, hindication, heq⟩ := bind_eq_some_iff.mp hstep
    obtain rfl := some.inj heq
    obtain ⟨hrequests, horder, honce, hcopies, hsent, hused⟩ := hpaired
    rcases zbMcpsDataIndication_waits hindication with
      ⟨hsame, hnone⟩ | ⟨⟨i, hfree, htaken⟩, hcount⟩
    · dsimp only at hsame
      refine ⟨?_, NwkMain.WaitsInOrder.congr hsame horder, ?_, hcopies, hsent, hused⟩
      · dsimp only
        rw [count_eq_of_none hnone, hsame]
        exact hrequests
      · intro buf
        dsimp only
        rw [if_neg hnone, append_nil, hsame]
        exact honce buf
    · dsimp only at htaken
      have hmem := mem_of_count hcount
      have haccepted : accepted = true :=
        hmeets.resolve_right fun hnone => hnone _ hindication hmem
      refine ⟨?_, ?_, ?_, hcopies, hsent, hused⟩
      · dsimp only
        rw [requested, if_pos haccepted, hcount, htaken,
          toNat_cnt_takeEnt horder, hrequests]
      · have htakes := horder.takeEnt hfree param
        exact NwkMain.WaitsInOrder.congr (by exact htaken) htakes
      · intro buf
        dsimp only
        rw [if_pos hmem, count_append, honce, htaken,
          NwkArray.holding_takeEnt hfree, count_singleton]
        simp only [toNat_beq]
        omega

theorem newBufferAllocated_served {nwk : NwkMain} {param : ℕ} (hparam : param ≠ 0)
    (hsome : nwk.waitAlloc.cnt ≠ 0) :
    (nwk.newBufferAllocated param).1.waitAlloc =
        nwk.waitAlloc.putEnt (nwk.waitAlloc.cnt.toNat - 1) ∧
      (nwk.newBufferAllocated param).2 = [.schedule .nwkFrameIndication param,
          .schedule .nwkForward (nwk.waitAlloc.ents (nwk.waitAlloc.cnt.toNat - 1))] ++
          if nwk.waitAlloc.cnt.toNat ≤ 1 then [] else [bufferRequest] := by
  have hcnt := toNat_cnt_putEnt hsome (nwk.waitAlloc.cnt.toNat - 1)
  unfold newBufferAllocated
  rw [if_pos ⟨hparam, hsome⟩]
  refine ⟨rfl, ?_⟩
  dsimp only
  congr 1
  by_cases hone : nwk.waitAlloc.cnt.toNat ≤ 1
  · rw [if_pos hone, if_neg]
    intro hleft
    apply hleft
    apply UInt8.toNat_inj.mp
    change (nwk.waitAlloc.putEnt _).cnt.toNat = 0
    rw [hcnt]
    omega
  · rw [if_neg hone, if_pos]
    · rfl
    · intro hleft
      have hzero : (nwk.waitAlloc.putEnt (nwk.waitAlloc.cnt.toNat - 1)).cnt =
          0 := hleft
      rw [hzero] at hcnt
      have hnone : UInt8.toNat 0 = 0 := rfl
      omega

theorem newBufferAllocated_packets {nwk : NwkMain} {param : ℕ} (hparam : param ≠ 0)
    (hsome : nwk.waitAlloc.cnt ≠ 0)
    (hother : param ≠ nwk.waitAlloc.ents (nwk.waitAlloc.cnt.toNat - 1)) :
    let buf := nwk.waitAlloc.ents (nwk.waitAlloc.cnt.toNat - 1)
    (nwk.newBufferAllocated param).1.packets param = nwk.packets buf ∧
      (nwk.newBufferAllocated param).1.packets buf =
        { nwk.packets buf with handle := nwkInternalNsduHandle } := by
  unfold newBufferAllocated
  rw [if_pos ⟨hparam, hsome⟩]
  exact ⟨(Function.update_of_ne hother ..).trans (Function.update_self ..),
    Function.update_self ..⟩

theorem paired_grant_iff {param : ℕ} {accepted : Bool} (hpaired : run.Paired) :
    (∀ next, run.step (.grant param accepted) = some next → next.Paired) ↔
      run.Meets (.grant param accepted) := by
  obtain ⟨hrequests, horder, honce, hcopies, hsent, hused⟩ := hpaired
  by_cases hout : run.requests = 0 ∨ run.nwk.waitAlloc.holding (· == param) ≠ 0
  · refine iff_of_true ?_ fun hsome hfree =>
      absurd hout (not_or.mpr ⟨hsome, not_not.mpr hfree⟩)
    intro next hstep
    rw [step, if_pos hout] at hstep
    contradiction
  obtain ⟨hnone, hfree⟩ := not_or.mp hout
  have hfree := not_not.mp hfree
  have hsome : run.nwk.waitAlloc.cnt ≠ 0 := by
    intro hzero
    apply hnone
    rw [hrequests, hzero]
    rfl
  rw [step, if_neg hout]
  simp only [some.injEq, forall_eq']
  by_cases hparam : param = 0
  · -- the first buffer of the pool is taken for no buffer
    refine iff_of_false ?_ (fun hmeets => (hmeets hnone hfree).1 hparam)
    intro hnext
    have hleft := hnext.used
    have hsilent : (run.nwk.newBufferAllocated param).2 = [] := by
      unfold newBufferAllocated
      rw [if_neg fun h => h.1 hparam]
    dsimp only at hleft
    rw [hsilent, hused] at hleft
    simp [DupRun.scheduled] at hleft
  · obtain ⟨hput, houtputs⟩ := newBufferAllocated_served hparam hsome
    obtain ⟨hi, hlast, hputs⟩ := horder.putEnt hsome
    have hother : param ≠ run.nwk.waitAlloc.ents (run.nwk.waitAlloc.cnt.toNat - 1) := by
      rintro rfl
      have hheld := @NwkArray.holding_putEnt _ _ run.nwk.waitAlloc _
        (· == run.nwk.waitAlloc.ents (run.nwk.waitAlloc.cnt.toNat - 1)) hi hlast
      simp only [beq_self_eq_true, Bool.toNat_true] at hheld
      omega
    obtain ⟨hcopied, hkept⟩ := newBufferAllocated_packets hparam hsome hother
    have hcnt := toNat_cnt_putEnt hsome (run.nwk.waitAlloc.cnt.toNat - 1)
    have hpos : run.nwk.waitAlloc.cnt.toNat ≠ 0 := hrequests ▸ hnone
    have hasked : requested accepted (run.nwk.newBufferAllocated param).2 =
        if run.nwk.waitAlloc.cnt.toNat ≤ 1 ∨ accepted = false then 0
        else 1 := by
      rw [requested, houtputs]
      cases accepted with
      | true =>
        by_cases hone : run.nwk.waitAlloc.cnt.toNat ≤ 1
        · rw [if_pos rfl, if_pos hone, if_pos (Or.inl hone)]
          rfl
        · rw [if_pos rfl, if_neg hone, if_neg (by simpa using hone)]
          rfl
      | false => rw [if_neg Bool.false_ne_true, if_pos (Or.inr rfl)]
    have hindicated (nwk : NwkMain) : DupRun.scheduled nwk .nwkFrameIndication
        (run.nwk.newBufferAllocated param).2 = [(param, nwk.packets param)] := by
      rw [DupRun.scheduled, houtputs]
      split <;> rfl
    have hforwarded (nwk : NwkMain) : DupRun.scheduled nwk .nwkForward
        (run.nwk.newBufferAllocated param).2 =
          [(run.nwk.waitAlloc.ents (run.nwk.waitAlloc.cnt.toNat - 1),
            nwk.packets (run.nwk.waitAlloc.ents (run.nwk.waitAlloc.cnt.toNat - 1)))] := by
      rw [DupRun.scheduled, houtputs]
      split <;> rfl
    constructor
    · intro hnext _ _
      refine ⟨hparam, ?_⟩
      by_contra hmore
      have hleft := hnext.requests
      dsimp only at hleft
      rw [hasked, if_neg hmore, hput, hcnt, hrequests] at hleft
      omega
    · intro hmeets
      refine ⟨?_, ?_, ?_, ?_, ?_, ?_⟩
      · dsimp only
        rw [hasked, if_pos (hmeets hnone hfree).2, hput, hcnt, hrequests]
        rfl
      · exact NwkMain.WaitsInOrder.congr (by exact hput) hputs
      · intro buf
        have hheld := @NwkArray.holding_putEnt _ _ run.nwk.waitAlloc _ (· == buf) hi hlast
        dsimp only
        rw [hforwarded, hput, honce, map_append, count_append, map_singleton,
          count_singleton, ← hheld]
        simp only [toNat_beq]
        omega
      · dsimp only
        rw [hindicated, hforwarded, hcopied, map_append, map_singleton,
          map_singleton, hcopies]
      · dsimp only
        rw [hforwarded, hforwarded, hkept, map_append, map_append, map_singleton,
          map_singleton, map_singleton, hsent]
      · dsimp only
        rw [hindicated, map_append, map_singleton, hused]

theorem paired_step_iff {event : DupEvent} (hpaired : run.Paired) :
    (∀ next, run.step event = some next → next.Paired) ↔ run.Meets event := by
  cases event with
  | frame param packet lqi unsecure accepted => exact paired_frame_iff hpaired
  | grant param accepted => exact paired_grant_iff hpaired
  | other next =>
    refine iff_of_true ?_ trivial
    intro next' hstep
    obtain rfl := some.inj hstep
    obtain ⟨hrequests, horder, honce, hcopies, hsent, hused⟩ := hpaired
    exact ⟨hrequests, ⟨horder.used, horder.cnt⟩, honce, hcopies, hsent, hused⟩

/-- Requests and frames which wait stay together exactly as long as no request
is refused and each grant is for a single frame. -/
theorem everyState_paired_iff {events : List DupEvent} (hpaired : run.Paired) :
    EveryState step Paired run events ↔ AlongRun step Meets run events :=
  @everyState_iff_alongRun _ _ step Meets Paired (fun _ => True)
    (fun _ _ hpaired _ => paired_step_iff hpaired)
    (fun _ _ _ _ _ _ _ => trivial) run events hpaired trivial

end Steps

def start (nwk : NwkMain) : DupRun := ⟨nwk, 0, [], [], [], [], []⟩

theorem paired_start : (start broadcastingNwk).Paired :=
  ⟨rfl, ⟨fun _ => rfl, Nat.zero_le _⟩, fun _ => (Nat.add_zero _).symm, rfl, rfl, rfl⟩

def broadcastOf (i : ℕ) : DupEvent :=
  .frame i { broadcastingNwk.packets i with srcAddr := 7 } 200
    (fun zg => some (zg, .ok ())) true

/-- Two broadcasts, the second one after the first has got its copy. -/
theorem everyState_paired_oneByOne : EveryState step Paired (start broadcastingNwk)
      [broadcastOf 1, .grant 2 true, broadcastOf 3, .grant 4 true] :=
  (everyState_paired_iff paired_start).mpr (by decide +kernel)

/-- The second broadcast comes while the first one waits: the grant for it
leaves one frame and two requests. -/
theorem not_everyState_paired_together : ¬ EveryState step Paired (start broadcastingNwk)
      [broadcastOf 1, broadcastOf 3, .grant 2 true] := by
  intro hevery
  have hobserved : (run step (start broadcastingNwk)
        [broadcastOf 1, broadcastOf 3, .grant 2 true]).map (fun last =>
          (last.requests, last.nwk.waitAlloc.cnt.toNat)) = some (2, 1) := by
    decide +kernel
  obtain ⟨last, hrun, heq⟩ := map_eq_some_iff.mp hobserved
  obtain ⟨hrequests, hcnt⟩ := Prod.mk.inj heq
  have hpaired := (hevery.last hrun).requests
  rw [hrequests, hcnt] at hpaired
  contradiction

end DupRun

end Zboss
