import Zboss.PacketPaths

/-!
# Counters of the broadcast tables

Runs in which frames are received, packets forwarded and broadcasts sent again
in any order, while timers expire and the device leaves.  The counters are exact
as long as the device does not leave with entries in use, and then each
broadcast which is to be sent again has a call of `nwk_broadcast_transmition`
ahead of it.
-/

namespace Zboss

open Option List NwkMain NwkOutput TransitionSystem

/-- The calls of `nwk_broadcast_transmition` which are to come: alarms,
scheduled callbacks, and requests for a buffer. -/
structure Activations where
  alarms : ℕ
  callbacks : ℕ
  requests : ℕ

def Activations.total (pending : Activations) : ℕ :=
  pending.alarms + pending.callbacks + pending.requests

/-- The output is about the next call of `nwk_broadcast_transmition`. -/
def NwkOutput.activates : NwkOutput → Bool
  | .schedule .nwkBroadcastTransmition _
  | .getBufDelayed .nwkBroadcastTransmition _
  | .setAlarm .nwkBroadcastTransmition
  | .cancelAlarm .nwkBroadcastTransmition => true
  | _ => false

/-- `accepted` is set if the scheduler and the pool have room for what is
asked of them. -/
def Activations.track (accepted : Bool) (pending : Activations) : NwkOutput → Activations
  | .schedule .nwkBroadcastTransmition _ =>
      { pending with callbacks := pending.callbacks + accepted.toNat }
  | .getBufDelayed .nwkBroadcastTransmition _ =>
      { pending with requests := pending.requests + accepted.toNat }
  | .setAlarm .nwkBroadcastTransmition =>
      { pending with alarms := pending.alarms + accepted.toNat }
  | .cancelAlarm .nwkBroadcastTransmition => { pending with alarms := pending.alarms - 1 }
  | _ => pending

structure BroadcastRun where
  nwk : NwkMain
  pending : Activations

inductive Activation where
  | alarm
  | callback
  | buffer (param : ℕ)

/-- `environment` is any other code, which leaves both tables alone. -/
inductive BroadcastEvent where
  | receive (param : ℕ) (packet : NwkPacket) (lqi : UInt8) (unsecure : NwkMain.Unsecure)
  | forward (param : ℕ)
  | transmit (activation : Activation)
  | newBuffer (param : ℕ)
  | btrExpiry
  | leave (param : ℕ) (rejoin : Bool)
  | environment (changed : NwkMain)

structure BroadcastInput where
  event : BroadcastEvent
  accepted : Bool

namespace BroadcastRun

def follow (run : BroadcastRun) (accepted : Bool)
    (result : NwkMain × List NwkOutput) : BroadcastRun where
  nwk := result.1
  pending := result.2.foldl (Activations.track accepted) run.pending

def consume (run : BroadcastRun) : Activation → Option (BroadcastRun × ℕ)
  | .alarm =>
      let pending := run.pending
      if pending.alarms ≠ 0 then
        some ({ run with pending := { pending with alarms := pending.alarms - 1 } },
            0)
      else none
  | .callback =>
      let pending := run.pending
      if pending.callbacks ≠ 0 then
        some
          ({ run with
              pending := { pending with callbacks := pending.callbacks - 1 } },
            0)
      else none
  | .buffer param =>
      let pending := run.pending
      if pending.requests ≠ 0 then
        some
          ({ run with
              pending := { pending with requests := pending.requests - 1 } },
            param)
      else none

def step (run : BroadcastRun) (input : BroadcastInput) : Option BroadcastRun :=
  let nwk := run.nwk
  match input.event with
  | .receive param packet lqi unsecure =>
      (nwk.zbMcpsDataIndication param packet lqi unsecure).map (run.follow input.accepted)
  | .forward param => (nwk.zbNwkForward param).map (run.follow input.accepted)
  | .transmit activation => do
      let (run, param) ← run.consume activation
      (run.nwk.nwkBroadcastTransmition param).map (run.follow input.accepted)
  | .newBuffer param => some (run.follow input.accepted (nwk.newBufferAllocated param))
  | .btrExpiry => some (run.follow input.accepted nwk.zbNwkBtrExpiry)
  | .leave param rejoin => some (run.follow input.accepted (nwk.zbNwkDoLeave param rejoin))
  | .environment changed =>
      some { run with nwk := { changed with btt := nwk.btt, brrt := nwk.brrt } }

def start (nwk : NwkMain) : BroadcastRun where
  nwk :=
    { nwk with
      btt := .zeroed ⟨0, 0, 0⟩
      brrt := .zeroed ⟨0, 0, none, 0, 0, 0, 0, ∅⟩ }
  pending := ⟨0, 0, 0⟩

/-- Both counters are exact.  So the assertion of `zb_nwk_forward` holds, no
counter is zero while an entry is still to be put, and each broadcast which is
to be sent again will be. -/
structure TablesSound (run : BroadcastRun) : Prop where
  btt : run.nwk.btt.Exact
  brrt : run.nwk.brrt.Exact
  assertion : run.nwk.brrt.cnt.toNat < nwkBrrTableSize → run.nwk.brrt.freeEnt ≠ none
  counters : (run.nwk.btt.live.Nonempty → run.nwk.btt.cnt ≠ 0) ∧
    (run.nwk.brrt.live.Nonempty → run.nwk.brrt.cnt ≠ 0)
  served : run.nwk.brrt.live.Nonempty → 0 < run.pending.total

def Accepted (_ : BroadcastRun) (input : BroadcastInput) : Prop :=
  input.accepted = true

def LeavesEmpty (run : BroadcastRun) (input : BroadcastInput) : Prop :=
  ∀ param rejoin, input.event = .leave param rejoin →
    run.nwk.btt.live = ∅ ∧ run.nwk.brrt.live = ∅

end BroadcastRun

theorem NwkArray.Exact.cnt_eq_zero
    {size : ℕ} {α : Type} {array : NwkArray size α} (hexact : array.Exact) :
    array.cnt = 0 ↔ array.live = ∅ := by
  rw [Exact] at hexact
  rw [← Finset.card_eq_zero, ← hexact, ← UInt8.toNat_inj]
  rfl

namespace BroadcastRun

variable {run : BroadcastRun}

theorem tablesSound_of_exact (hbtt : run.nwk.btt.Exact) (hbrrt : run.nwk.brrt.Exact)
    (hserved : run.nwk.brrt.live.Nonempty → 0 < run.pending.total) :
    TablesSound run := by
  refine ⟨hbtt, hbrrt, ?_, ⟨?_, ?_⟩, hserved⟩
  · intro hroom
    obtain ⟨i, hfree⟩ := hbrrt.exists_freeEnt hroom
    rw [hfree]
    exact some_ne_none i
  · intro hlive hzero
    exact hlive.ne_empty (hbtt.cnt_eq_zero.mp hzero)
  · intro hlive hzero
    exact hlive.ne_empty (hbrrt.cnt_eq_zero.mp hzero)

theorem tablesSound_start (nwk : NwkMain) : TablesSound (start nwk) := by
  have hbrrt : (start nwk).nwk.brrt.Exact := NwkArray.exact_zeroed _
  refine tablesSound_of_exact (NwkArray.exact_zeroed _) hbrrt ?_
  intro hlive
  exact absurd (hbrrt.cnt_eq_zero.mp rfl) hlive.ne_empty

variable {accepted : Bool} {pending : Activations}
  {result : NwkMain × List NwkOutput} {next nwk : NwkMain}
  {started : List NwkOutput} {param : ℕ}

theorem track_eq_of_not_activates {output : NwkOutput}
    (houtput : output.activates = false) :
    pending.track accepted output = pending := by
  unfold Activations.track
  split
  · contradiction
  · contradiction
  · contradiction
  · contradiction
  · rfl

theorem foldl_track_eq {outputs : List NwkOutput}
    (houtputs : ∀ output ∈ outputs, output.activates = false) :
    outputs.foldl (Activations.track accepted) pending = pending := by
  induction outputs generalizing pending with
  | nil => rfl
  | cons output rest ih =>
    rw [foldl_cons, track_eq_of_not_activates (houtputs output mem_cons_self)]
    exact ih fun o ho => houtputs o (mem_cons_of_mem output ho)

structure KeepsTables (nwk : NwkMain) (result : NwkMain × List NwkOutput) : Prop where
  btt : nwk.btt.Exact → result.1.btt.Exact
  brrt : NwkArray.Evolves nwk.brrt result.1.brrt
  outputs : ∀ output ∈ result.2, output.activates = false

theorem KeepsTables.tablesSound
    (hkeeps : KeepsTables run.nwk result) (hsound : TablesSound run) :
    TablesSound (run.follow accepted result) := by
  refine tablesSound_of_exact (hkeeps.btt hsound.btt) (hkeeps.brrt.exact hsound.brrt) ?_
  intro hlive
  have hpending : (run.follow accepted result).pending = run.pending :=
    foldl_track_eq hkeeps.outputs
  rw [hpending]
  exact hsound.served (hlive.mono hkeeps.brrt.live)

theorem exact_of_addBtr {sourceAddr sequenceNumber : ℕ}
    (hadd : nwk.addBtr sourceAddr sequenceNumber = some (next, started))
    (hexact : nwk.btt.Exact) : next.btt.Exact := by
  obtain ⟨-, i, hfree, rfl⟩ := addBtr_eq_some hadd
  exact hexact.takeEnt (by decide) hfree

theorem startBtrExpiry_aside (nwk : NwkMain) :
    ∀ output ∈ nwk.startBtrExpiry, output.activates = false := by
  rcases nwk.startBtrExpiry_spec with hnone | hsome
  · rw [hnone]
    simp
  · rw [hsome]
    simp [activates]

theorem frameEnds_aside {outputs : List NwkOutput} (houtputs : outputs ∈ frameEnds param) :
    ∀ output ∈ outputs, output.activates = false := by
  simp only [frameEnds, mem_cons, not_mem_nil, or_false] at houtputs
  rcases houtputs with rfl | rfl | rfl | rfl | rfl <;> simp [activates]

theorem keepsTables_indication {packet : NwkPacket} {lqi : UInt8}
    {unsecure : NwkMain.Unsecure}
    (hindication : nwk.zbMcpsDataIndication param packet lqi unsecure =
      some result) : KeepsTables nwk result := by
  have hacked : ∀ acked : List NwkOutput,
      (acked = [] ∨ ∃ buf, acked = [.schedule .nwkCallBrConfirm buf]) →
        ∀ output ∈ acked, output.activates = false := by
    rintro acked (rfl | ⟨buf, rfl⟩)
    · simp
    · simp [activates]
  have hfreed : ∀ acked : List NwkOutput,
      (acked = [] ∨ ∃ buf, acked = [.schedule .nwkCallBrConfirm buf]) →
        ∀ output ∈ acked ++ [.freeBuf param], output.activates = false := by
    intro acked hcases output houtput
    rcases mem_append.mp houtput with hmem | hmem
    · exact hacked acked hcases output hmem
    · rw [mem_singleton.mp hmem]
      rfl
  cases zbMcpsDataIndication_cases hindication with
  | bad hbad =>
    refine ⟨id, .refl _, ?_⟩
    simp [activates]
  | repeated _ hmark _ =>
    have hspec := markPassiveAck_spec hmark
    refine ⟨fun hexact => ?_, hspec.brrt, hfreed _ hspec.outputs⟩
    rw [hspec.btt]
    exact hexact
  | full _ hmark _ _ =>
    have hspec := markPassiveAck_spec hmark
    refine ⟨fun hexact => ?_, hspec.brrt, hfreed _ hspec.outputs⟩
    rw [hspec.btt]
    exact hexact
  | broadcast _ hmark hnew hadd hhandle =>
    rename_i marked recorded next acked started outputs _ _
    have hspec := markPassiveAck_spec hmark
    obtain ⟨hsame, hends⟩ := handleFrame_spec hhandle
    have hbtt := hspec.btt
    obtain ⟨hstarted, i, -, hrecorded⟩ := addBtr_eq_some hadd
    refine ⟨?_, ?_, ?_⟩
    · intro hexact
      rw [hsame.btt]
      apply exact_of_addBtr hadd
      rw [hbtt]
      exact hexact
    · rw [hsame.brrt, hrecorded]
      exact hspec.brrt
    · intro output houtput
      rcases mem_append.mp houtput with hfirst | hlast
      · rcases mem_append.mp hfirst with hmem | hmem
        · exact hacked acked hspec.outputs output hmem
        · rw [hstarted] at hmem
          exact startBtrExpiry_aside recorded output hmem
      · exact frameEnds_aside hends output hlast
  | unicast _ hhandle =>
    obtain ⟨hsame, hends⟩ := handleFrame_spec hhandle
    refine ⟨?_, ?_, frameEnds_aside hends⟩
    · intro hexact
      rw [hsame.btt]
      exact hexact
    · rw [hsame.brrt]
      exact .refl _

theorem keepsTables_newBuffer (nwk : NwkMain) (param : ℕ) :
    KeepsTables nwk (nwk.newBufferAllocated param) := by
  unfold newBufferAllocated
  dsimp only
  split
  · refine ⟨id, .refl _, ?_⟩
    intro output houtput
    rcases mem_append.mp houtput with hmem | hmem
    · simp only [mem_cons, not_mem_nil, or_false] at hmem
      rcases hmem with rfl | rfl <;> rfl
    · split at hmem
      · rw [mem_singleton.mp hmem]
        rfl
      · contradiction
  · exact ⟨id, .refl _, by simp⟩

theorem evolves_btrExpiryLoop (btt : NwkArray nwkBtrTableSize NwkBtr) {entries : List ℕ}
    (hentries : ∀ i ∈ entries, i < nwkBtrTableSize) :
    NwkArray.Evolves btt (btrExpiryLoop btt entries) := by
  induction entries generalizing btt with
  | nil => exact .refl btt
  | cons i rest ih =>
    have hrest : ∀ j ∈ rest, j < nwkBtrTableSize :=
      fun j hj => hentries j (mem_cons_of_mem i hj)
    rw [btrExpiryLoop]
    split
    · rename_i hused
      split
      · exact (NwkArray.evolves_setEnt btt i _).trans (ih _ hrest)
      · exact (NwkArray.evolves_putEnt (hentries i mem_cons_self) hused).trans (ih _ hrest)
    · exact ih btt hrest

theorem keepsTables_btrExpiry (nwk : NwkMain) :
    KeepsTables nwk nwk.zbNwkBtrExpiry := by
  unfold zbNwkBtrExpiry
  split
  · refine ⟨?_, .refl _, by simp [activates]⟩
    exact (evolves_btrExpiryLoop nwk.btt (fun i hi => mem_range.mp hi)).exact
  · exact ⟨id, .refl _, by simp⟩

theorem zbNwkDoLeave_spec (nwk : NwkMain) (param : ℕ) (rejoin : Bool) :
    (nwk.zbNwkDoLeave param rejoin).1.btt = { nwk.btt with cnt := 0 } ∧
      (nwk.zbNwkDoLeave param rejoin).1.brrt = { nwk.brrt with cnt := 0 } ∧
      ∀ output ∈ (nwk.zbNwkDoLeave param rejoin).2, output.activates = false := by
  unfold NwkMain.zbNwkDoLeave
  cases rejoin with
  | true => exact ⟨rfl, rfl, by simp [activates]⟩
  | false => exact ⟨rfl, rfl, by simp [activates]⟩

theorem exact_reset {size : ℕ} {α : Type} {array : NwkArray size α} :
    ({ array with cnt := 0 } : NwkArray size α).Exact ↔ array.live = ∅ := by
  rw [← Finset.card_eq_zero]
  exact eq_comm

theorem tablesSound_leave {rejoin : Bool}
    (hempty : run.nwk.btt.live = ∅ ∧ run.nwk.brrt.live = ∅) :
    TablesSound (run.follow accepted (run.nwk.zbNwkDoLeave param rejoin)) := by
  obtain ⟨hbtt, hbrrt, -⟩ := zbNwkDoLeave_spec run.nwk param rejoin
  refine tablesSound_of_exact ?_ ?_ ?_
  · rw [follow, hbtt]
    exact exact_reset.mpr hempty.1
  · rw [follow, hbrrt]
    exact exact_reset.mpr hempty.2
  · intro hlive
    rw [follow, hbrrt] at hlive
    exact absurd hempty.2 hlive.ne_empty

theorem recorded_tables (hrecorded : NwkMain.Recorded nwk param next started) :
    (nwk.btt.Exact → next.btt.Exact) ∧ next.brrt = nwk.brrt ∧
      ∀ output ∈ started, output.activates = false := by
  cases hrecorded with
  | kept => exact ⟨id, rfl, by simp⟩
  | added _ hadd =>
    refine ⟨exact_of_addBtr hadd, ?_⟩
    obtain ⟨rfl, i, -, rfl⟩ := addBtr_eq_some hadd
    exact ⟨rfl, startBtrExpiry_aside _⟩

theorem forwardFailed_spec (nwk : NwkMain) (param macDst : ℕ) :
    (∃ zg, (nwk.forwardFailed param macDst).1 = nwk.setZg zg) ∧
      ((nwk.forwardFailed param macDst).2 = [.freeBuf param] ∨
        (nwk.forwardFailed param macDst).2 = [.schedule .nlmeStatusIndication param]) := by
  unfold forwardFailed
  split
  · dsimp only
    split
    · exact ⟨⟨_, rfl⟩, .inr rfl⟩
    · exact ⟨⟨_, rfl⟩, .inl rfl⟩
  · exact ⟨⟨_, rfl⟩, .inl rfl⟩

theorem keepsTables_forwardFailed (param macDst : ℕ)
    (hbtt : nwk.btt.Exact → next.btt.Exact) (hbrrt : next.brrt = nwk.brrt)
    (hstarted : ∀ output ∈ started, output.activates = false) :
    KeepsTables nwk ((next.forwardFailed param macDst).1,
        started ++ (next.forwardFailed param macDst).2) := by
  obtain ⟨⟨zg, hzg⟩, houtputs⟩ := forwardFailed_spec next param macDst
  rw [hzg]
  refine ⟨hbtt, ?_, ?_⟩
  · change NwkArray.Evolves nwk.brrt next.brrt
    rw [hbrrt]
    exact .refl _
  · intro output houtput
    rcases mem_append.mp houtput with hmem | hmem
    · exact hstarted output hmem
    · rcases houtputs with heq | heq
      · rw [heq] at hmem
        rw [mem_singleton.mp hmem]
        rfl
      · rw [heq] at hmem
        rw [mem_singleton.mp hmem]
        rfl

theorem routesChanged_tables (hchanged : NwkMain.RoutesChanged nwk next) :
    next.btt = nwk.btt ∧ next.brrt = nwk.brrt := by
  obtain ⟨_, _, _, rfl⟩ := hchanged
  exact ⟨rfl, rfl⟩

theorem tablesSound_forward (hsound : TablesSound run)
    (hforward : run.nwk.zbNwkForward param = some result) :
    TablesSound (run.follow true result) := by
  have hfailed : ∀ (routed next : NwkMain) (macDst : ℕ) (started : List NwkOutput),
      routed.btt = run.nwk.btt → routed.brrt = run.nwk.brrt →
      (routed.btt.Exact → next.btt.Exact) → next.brrt = routed.brrt →
      (∀ output ∈ started, output.activates = false) →
      TablesSound (run.follow true ((next.forwardFailed param macDst).1,
          started ++ (next.forwardFailed param macDst).2)) := by
    intro routed next macDst started hbtt hbrrt hnext hsame hstarted
    rw [hbtt] at hnext
    exact (keepsTables_forwardFailed param macDst hnext (hsame.trans hbrrt)
      hstarted).tablesSound hsound
  cases zbNwkForward_cases hforward with
  | waits hcalc =>
    obtain ⟨hchanged, houtputs⟩ := nwkCalcDestination_calculates hcalc
    obtain ⟨hbtt, hbrrt⟩ := routesChanged_tables hchanged
    dsimp only at hbtt hbrrt houtputs
    refine KeepsTables.tablesSound ⟨fun hexact => ?_, ?_, ?_⟩ hsound
    · exact hbtt ▸ hexact
    · exact hbrrt ▸ NwkArray.Evolves.refl _
    · rcases houtputs with rfl | ⟨-, rfl⟩
      · simp
      · simp [activates]
  | noDestination hcalc =>
    obtain ⟨hbtt, hbrrt⟩ := routesChanged_tables
      (nwkCalcDestination_calculates hcalc).changed
    exact hfailed _ _ _ [] hbtt hbrrt id rfl (by simp)
  | noRecord hcalc _ =>
    obtain ⟨hbtt, hbrrt⟩ := routesChanged_tables
      (nwkCalcDestination_calculates hcalc).changed
    exact hfailed _ _ _ [] hbtt hbrrt id rfl (by simp)
  | noRetransmit hcalc hrecorded _ =>
    obtain ⟨hbtt, hbrrt⟩ := routesChanged_tables
      (nwkCalcDestination_calculates hcalc).changed
    obtain ⟨hexact, hsame, hstarted⟩ := recorded_tables hrecorded
    exact hfailed _ _ _ _ hbtt hbrrt hexact hsame hstarted
  | sent hcalc hrecorded =>
    obtain ⟨hbtt, hbrrt⟩ := routesChanged_tables
      (nwkCalcDestination_calculates hcalc).changed
    obtain ⟨hexact, hsame, hstarted⟩ := recorded_tables hrecorded
    refine KeepsTables.tablesSound ⟨fun h => hexact (hbtt ▸ h), ?_, ?_⟩ hsound
    · exact (hsame.trans hbrrt) ▸ NwkArray.Evolves.refl _
    · intro output houtput
      rcases mem_append.mp houtput with hmem | hmem
      · exact hstarted output hmem
      · rw [mem_singleton.mp hmem]
        rfl
  | retransmits hcalc hrecorded hfree =>
    obtain ⟨hbtt, hbrrt⟩ := routesChanged_tables
      (nwkCalcDestination_calculates hcalc).changed
    obtain ⟨hexact, hsame, hstarted⟩ := recorded_tables hrecorded
    refine tablesSound_of_exact (hexact (hbtt ▸ hsound.btt)) ?_ ?_
    · have hbefore := hsound.brrt
      rw [← hbrrt, ← hsame] at hbefore
      exact hbefore.takeEnt (by decide) hfree
    · intro _
      rw [follow, foldl_append, foldl_track_eq hstarted]
      change 0 < run.pending.alarms - 1 + run.pending.callbacks +
        (run.pending.requests + 1)
      omega

theorem sendBroadcast_brrt (nwk : NwkMain) (param : ℕ) (child : Option ℕ) :
    (nwk.sendBroadcast param child).btt = nwk.btt ∧
      (nwk.sendBroadcast param child).brrt = nwk.brrt := by
  cases child with
  | none => exact ⟨rfl, rfl⟩
  | some n => exact ⟨rfl, rfl⟩

structure Transmits (nwk : NwkMain) (result : NwkMain × List NwkOutput) : Prop where
  btt : result.1.btt = nwk.btt
  brrt : NwkArray.Evolves nwk.brrt result.1.brrt
  outputs : ∃ outputs, (∀ output ∈ outputs, output.activates = false) ∧
    result.2 = outputs ++ result.1.scheduleTransmition true

theorem transmitEnt_spec {param i : ℕ} {child : Option ℕ}
    (htransmit : nwk.transmitEnt param i child = some result)
    (hi : i < nwkBrrTableSize) (hused : nwk.brrt.used i = true) :
    Transmits nwk result := by
  obtain ⟨ent, -, hrest⟩ := bind_eq_some_iff.mp htransmit
  dsimp only at hrest
  have hset := NwkArray.evolves_setEnt nwk.brrt i ent
  split at hrest
  · obtain rfl := some.inj hrest
    obtain ⟨hbtt, hbrrt⟩ := sendBroadcast_brrt
      { nwk with brrt := (nwk.brrt.setEnt i ent).putEnt i } ent.buf child
    refine ⟨hbtt, ?_, [.freeBuf param, .schedule .mcpsDataRequest ent.buf], ?_, rfl⟩
    · rw [hbrrt]
      exact hset.trans (NwkArray.evolves_putEnt hi hused)
    · simp [activates]
  · obtain rfl := some.inj hrest
    have htables : ∀ nwk' : NwkMain, nwk'.btt = nwk.btt →
        nwk'.brrt = nwk.brrt.setEnt i ent →
        Transmits nwk (nwk'.sendBroadcast param child, .schedule .mcpsDataRequest param ::
            (nwk'.sendBroadcast param child).scheduleTransmition true) := by
      intro nwk' hbtt' hbrrt'
      obtain ⟨hbtt, hbrrt⟩ := sendBroadcast_brrt nwk' param child
      refine ⟨hbtt.trans hbtt', ?_, [.schedule .mcpsDataRequest param], ?_, rfl⟩
      · rw [hbrrt, hbrrt']
        exact hset
      · simp [activates]
    apply htables
    · split
      · rfl
      · rfl
    · split
      · rfl
      · rfl

theorem scheduled_of_live {sent : Bool}
    (hexact : nwk.brrt.Exact) (hlive : nwk.brrt.live.Nonempty) :
    0 < ((nwk.scheduleTransmition sent).foldl (Activations.track true) pending).total := by
  have hcnt : nwk.brrt.cnt ≠ 0 := by
    intro hzero
    exact hlive.ne_empty (hexact.cnt_eq_zero.mp hzero)
  rw [scheduleTransmition, if_pos hcnt]
  cases sent with
  | true =>
    change 0 < pending.alarms + (pending.callbacks + 1) + pending.requests
    omega
  | false =>
    change 0 < pending.alarms - 1 + 1 + pending.callbacks + pending.requests
    omega

theorem tablesSound_transmit (hbtt : run.nwk.btt.Exact) (hbrrt : run.nwk.brrt.Exact)
    (htransmit : run.nwk.nwkBroadcastTransmition param = some result) :
    TablesSound (run.follow true result) := by
  obtain ⟨⟨ents, hents⟩, hpicked⟩ := run.nwk.pickBroadcast_spec
  unfold nwkBroadcastTransmition at htransmit
  split at htransmit
  · rename_i picked i child hpick
    rw [hpick] at hents hpicked
    dsimp only at hents
    obtain ⟨hi, hused⟩ := hpicked i child rfl
    subst hents
    split at htransmit
    · obtain rfl := some.inj htransmit
      refine tablesSound_of_exact hbtt hbrrt ?_
      intro _
      change 0 < run.pending.alarms + run.pending.callbacks + (run.pending.requests + 1)
      omega
    · obtain ⟨hsame, hevolves, outputs, houtputs, heq⟩ :=
        transmitEnt_spec htransmit hi hused
      refine tablesSound_of_exact ?_ (hevolves.exact hbrrt) ?_
      · rw [follow, hsame]
        exact hbtt
      · intro hlive
        rw [follow, heq, foldl_append]
        exact scheduled_of_live (hevolves.exact hbrrt) hlive
  · rename_i picked hpick
    rw [hpick] at hents
    dsimp only at hents
    subst hents
    obtain rfl := some.inj htransmit
    refine tablesSound_of_exact hbtt hbrrt ?_
    intro hlive
    rw [follow, foldl_append]
    exact scheduled_of_live hbrrt hlive

theorem consume_nwk {activation : Activation} {next : BroadcastRun}
    (hconsume : run.consume activation = some (next, param)) :
    next.nwk = run.nwk := by
  cases activation <;>
  · unfold consume at hconsume
    dsimp only at hconsume
    split at hconsume
    · obtain ⟨rfl, -⟩ := some_pair_inj hconsume
      rfl
    · contradiction

theorem tablesSound_step {input : BroadcastInput} {next : BroadcastRun}
    (hsound : TablesSound run)
    (hcondition : Accepted run input ∧ LeavesEmpty run input)
    (hstep : run.step input = some next) : TablesSound next := by
  obtain ⟨event, accepted⟩ := input
  obtain ⟨haccepted, hleaves⟩ := hcondition
  obtain rfl : accepted = true := haccepted
  cases event with
  | receive param packet lqi unsecure =>
    obtain ⟨result, hindication, rfl⟩ := map_eq_some_iff.mp hstep
    exact (keepsTables_indication hindication).tablesSound hsound
  | forward param =>
    obtain ⟨result, hforward, rfl⟩ := map_eq_some_iff.mp hstep
    exact tablesSound_forward hsound hforward
  | transmit activation =>
    obtain ⟨⟨called, param⟩, hconsume, hrest⟩ := bind_eq_some_iff.mp hstep
    obtain ⟨result, htransmit, rfl⟩ := map_eq_some_iff.mp hrest
    have hnwk := consume_nwk hconsume
    apply tablesSound_transmit _ _ htransmit
    · rw [hnwk]
      exact hsound.btt
    · rw [hnwk]
      exact hsound.brrt
  | newBuffer param =>
    obtain rfl := some.inj hstep
    exact (keepsTables_newBuffer run.nwk param).tablesSound hsound
  | btrExpiry =>
    obtain rfl := some.inj hstep
    exact (keepsTables_btrExpiry run.nwk).tablesSound hsound
  | leave param rejoin =>
    obtain rfl := some.inj hstep
    exact tablesSound_leave (hleaves param rejoin rfl)
  | environment changed =>
    obtain rfl := some.inj hstep
    exact tablesSound_of_exact hsound.btt hsound.brrt hsound.served

theorem leavesEmpty_of_tablesSound {input : BroadcastInput}
    (hnext : ∀ next, run.step input = some next → TablesSound next) :
    LeavesEmpty run input := by
  obtain ⟨event, accepted⟩ := input
  rintro param rejoin rfl
  have hsound := hnext _ rfl
  obtain ⟨hbtt, hbrrt, -⟩ := zbNwkDoLeave_spec run.nwk param rejoin
  constructor
  · have hexact := hsound.btt
    rw [follow, hbtt] at hexact
    exact exact_reset.mp hexact
  · have hexact := hsound.brrt
    rw [follow, hbrrt] at hexact
    exact exact_reset.mp hexact

/-- If what is asked of the scheduler and of the pool is granted, the counters
are exact in every state of a run, and each broadcast which is to be sent again
will be, exactly when the device never leaves with an entry in use. -/
theorem everyState_tablesSound_iff {nwk : NwkMain} {inputs : List BroadcastInput}
    (haccepted : AlongRun step Accepted (start nwk) inputs) :
    EveryState step TablesSound (start nwk) inputs ↔
      AlongRun step LeavesEmpty (start nwk) inputs := by
  constructor
  · intro hevery
    exact alongRun_of_everyState
      (fun _ _ _ hnext => leavesEmpty_of_tablesSound hnext) hevery
  · intro hleaves
    exact everyState_of_invariant (fun _ _ _ hsound hcondition hstep =>
        tablesSound_step hsound hcondition hstep)
      (fun _ hsound => hsound) (tablesSound_start nwk) (haccepted.and hleaves)

end BroadcastRun

def broadcastingNwk : NwkMain where
  mesh := activeRouter 0
  waitingBuf _ := false
  pendExpiry _ := 0
  treeNib := ⟨4, 4, 5, 1, 0, 0, 0, 1, true⟩
  useTreeRouting := true
  secureAllFrames := false
  deviceType := .router
  joinedPro := false
  rejoining := false
  parent := 0
  rxOnWhenIdle := true
  timer := 0
  sequenceNumber := 0
  btt := .zeroed ⟨0, 0, 0⟩
  brrt := .zeroed ⟨0, 0, none, 0, 0, 0, 0, ∅⟩
  waitAlloc := .zeroed 0
  packets i :=
    { macHdr := false
      nwkHdr := true
      payload := .data
      security := false
      discoverRoute := false
      dstIeeeAddr := none
      dstAddr := nwkBroadcastAllDevices
      srcAddr := 1
      radius := 10
      seqNum := i
      macSource := none
      macDst := 0
      indirect := false
      handle := 0 }

namespace BroadcastRun

/-- A device which leaves first and then sends is right. -/
theorem everyState_tablesSound_leaveFirst :
    EveryState step TablesSound (start broadcastingNwk)
      [⟨.leave 2 true, true⟩, ⟨.forward 1, true⟩] := by
  have haccepted : AlongRun step Accepted (start broadcastingNwk)
      [⟨.leave 2 true, true⟩, ⟨.forward 1, true⟩] :=
    ⟨rfl, fun _ _ => ⟨rfl, fun _ _ => trivial⟩⟩
  apply (everyState_tablesSound_iff haccepted).mpr
  refine ⟨?_, ?_⟩
  · intro _ _ _
    exact ⟨by decide, by decide⟩
  · intro _ _
    refine ⟨?_, fun _ _ => trivial⟩
    intro _ _ hleave
    contradiction

/-- Eight broadcasts fill the table, and their entries stay in use when the
device leaves.  The next broadcast finds no entry. -/
theorem not_everyState_tablesSound_leaves : AlongRun step Accepted (start broadcastingNwk)
        ((List.range 8).map (fun i => ⟨.forward i, true⟩) ++ [⟨.leave 8 true, true⟩]) ∧
      ¬ EveryState step TablesSound (start broadcastingNwk)
        ((List.range 8).map (fun i => ⟨.forward i, true⟩) ++ [⟨.leave 8 true, true⟩]) := by
  constructor
  · repeat refine ⟨rfl, fun _ _ => ?_⟩
    trivial
  · intro hevery
    have hlast : (run step (start broadcastingNwk)
        ((List.range 8).map (fun i => ⟨.forward i, true⟩) ++
          [⟨.leave 8 true, true⟩])).any (fun last =>
            last.nwk.brrt.cnt = 0 ∧ last.nwk.brrt.freeEnt = none) = true := by
      decide +kernel
    cases hrun : run step (start broadcastingNwk)
        ((List.range 8).map (fun i => ⟨.forward i, true⟩) ++ [⟨.leave 8 true, true⟩]) with
    | none =>
        rw [hrun] at hlast
        contradiction
    | some last =>
        rw [hrun] at hlast
        obtain ⟨hzero, hfull⟩ := of_decide_eq_true hlast
        apply (hevery.last hrun).assertion _ hfull
        rw [hzero]
        decide

end BroadcastRun

end Zboss
