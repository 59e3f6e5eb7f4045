import Zboss.CustodyPaths

/-!
# Requests and their confirms

Runs in which the APS layer requests that packets be sent, and the network
layer, the MAC layer and the scheduler do what they have to in any order.  A
packet which has been requested is to stay with the network layer until it is
confirmed, and then to begin with the headers which the confirm cuts off.
-/

namespace Zboss

open Function Option TransitionSystem

/-- The network layer with the calls to come with packets, the buffers which
have been requested and whose confirm has not run, and those which the layer
has freed or handed to anyone else. -/
structure RequestRun where
  nwk : NwkMain
  queue : List (NwkCallback × ℕ)
  requested : Finset ℕ
  given : Finset ℕ

/-- The APS layer requests that a packet be sent.  Other code has a packet of
its own forwarded, a callback runs, the MAC layer confirms or indicates a frame,
a granted buffer arrives, or a timer has run out; `other` is anything else that
changes the layer. -/
inductive RequestEvent where
  | request (param : ℕ) (req : NldeDataReq)
  | send (param : ℕ) (packet : NwkPacket)
  | forward (param : ℕ)
  | macConfirm (param : ℕ) (success : Bool)
  | brConfirm (param : ℕ) (success : Bool)
  | confirm (param : ℕ)
  | transmit (param : ℕ)
  | receive (param : ℕ) (packet : NwkPacket) (lqi : UInt8) (unsecure : NwkMain.Unsecure)
  | newBuffer (param : ℕ)
  | frame (param : ℕ)
  | discover (param : ℕ)
  | pendingExpiry
  | leave (param : ℕ) (rejoin : Bool)
  | other (next : NwkMain)

namespace NwkMain

def resume (nwk : NwkMain) : NwkOutput → NwkMain
  | .mesh _ (.forwardPending buf handle) =>
      nwk.setPacket buf { nwk.packets buf with handle := handle }
  | _ => nwk

end NwkMain

namespace RequestRun

def places (run : RequestRun) (buf : ℕ) : ℕ :=
  run.nwk.held buf + queuedFor buf run.queue

def follow (run : RequestRun) (result : NwkMain × List NwkOutput) :
    RequestRun :=
  { run with
    nwk := result.2.foldl NwkMain.resume result.1
    queue := run.queue ++ tasks result.2
    given := run.given ∪ (gifts result.2).toFinset }

def take (run : RequestRun) (func : NwkCallback) (param : ℕ) :
    Option RequestRun :=
  if (func, param) ∈ run.queue then
    some { run with queue := run.queue.erase (func, param) }
  else none

def Unused (run : RequestRun) (param : ℕ) : Prop :=
  param ∉ run.requested ∧ run.places param = 0

instance (run : RequestRun) (param : ℕ) : Decidable (run.Unused param) :=
  inferInstanceAs (Decidable (_ ∧ _))

def request (run : RequestRun) (param : ℕ) (req : NldeDataReq) : RequestRun :=
  let requesting :=
    { run with
      requested := insert param run.requested
      given := run.given.erase param }
  requesting.follow (run.nwk.zbNldeDataRequest param req)

def changeOthers (run : RequestRun) (next : NwkMain) : NwkMain :=
  { next with
    mesh := { next.mesh with pendingTable := run.nwk.mesh.pendingTable }
    brrt := run.nwk.brrt
    waitAlloc := run.nwk.waitAlloc
    packets := fun param =>
      if param ∈ run.requested then run.nwk.packets param
      else next.packets param }

def macHeader (nwk : NwkMain) (param : ℕ) : NwkMain :=
  nwk.setPacket param { nwk.packets param with macHdr := true }

/-- No function gets a buffer which is still with the layer, except from the
layer itself; the parameter 0 of two of them means that there is none. -/
def step (run : RequestRun) : RequestEvent → Option RequestRun
  | .request param req => if run.Unused param then some (run.request param req) else none
  | .send param packet =>
      if param ∈ run.requested then none
      else
        some (run.follow (run.nwk.setPacket param packet, [.schedule .nwkForward param]))
  | .forward param => do
      let run ← run.take .nwkForward param
      (run.nwk.zbNwkForward param).map run.follow
  | .macConfirm param success => do
      let run ← run.take .mcpsDataRequest param
      let nwk := macHeader run.nwk param
      some (run.follow (nwk, nwk.zbMcpsDataConfirm param success))
  | .brConfirm param success => do
      let run ← run.take .nwkCallBrConfirm param
      some (run.follow (run.nwk.zbNwkCallBrConfirm param success))
  | .confirm param => do
      let run ← run.take .nldeDataConfirm param
      some { run with requested := run.requested.erase param }
  | .transmit param =>
      if param ≠ 0 ∧ param ∈ run.requested then none
      else (run.nwk.nwkBroadcastTransmition param).map run.follow
  | .receive param packet lqi unsecure =>
      if param ∈ run.requested then none
      else (run.nwk.zbMcpsDataIndication param packet lqi unsecure).map run.follow
  | .newBuffer param =>
      if param ≠ 0 ∧ param ∈ run.requested then none
      else some (run.follow (run.nwk.newBufferAllocated param))
  | .frame param =>
      if param ∈ run.requested then none
      else some (run.follow (run.nwk.nwkFrameIndication param))
  | .discover param =>
      if param ∈ run.requested then none
      else (run.nwk.zbNwkMeshInitiateRouteDiscovery param).map run.follow
  | .pendingExpiry => some (run.follow run.nwk.zbNwkMeshExpiryPending)
  | .leave param rejoin =>
      if param ∈ run.requested then none
      else some (run.follow (run.nwk.zbNwkDoLeave param rejoin))
  | .other next => some { run with nwk := run.changeOthers next }

def start (nwk : NwkMain) (queue : List (NwkCallback × ℕ)) : RequestRun :=
  ⟨nwk, queue, ∅, ∅⟩

structure Kept (run : RequestRun) (buf : ℕ) : Prop where
  given : buf ∉ run.given
  places : run.places buf = 1
  headers : (.nldeDataConfirm, buf) ∈ run.queue →
    (run.nwk.packets buf).macHdr = true ∧ (run.nwk.packets buf).nwkHdr = true

def Answered (run : RequestRun) : Prop := ∀ buf ∈ run.requested, run.Kept buf

/-- A request is made on a device which has joined.  A packet which is
forwarded can be delivered, has an ordinary handle when it comes back, and finds
a route in time. -/
def Meets (run : RequestRun) : RequestEvent → Prop
  | .request param _ => run.Unused param → run.nwk.mesh.zg.joined = true
  | .forward param =>
      param ∈ run.requested → (.nwkForward, param) ∈ run.queue →
        ¬ run.nwk.Undeliverable param
  | .macConfirm param _ =>
      param ∈ run.requested → (.mcpsDataRequest, param) ∈ run.queue →
        ¬ run.nwk.InternalHandle param
  | .brConfirm param _ =>
      param ∈ run.requested → (.nwkCallBrConfirm, param) ∈ run.queue →
        ¬ run.nwk.InternalHandle param
  | .pendingExpiry => ∀ buf ∈ run.requested, ¬ run.nwk.Expires buf
  | _ => True

instance (run : RequestRun) (event : RequestEvent) :
    Decidable (run.Meets event) := by
  unfold Meets
  split <;> infer_instance

structure Supported (run : RequestRun) : Prop where
  waits : run.nwk.WaitsInOrder
  nwkHdr : ∀ buf ∈ run.requested, (run.nwk.packets buf).nwkHdr = true

variable {run next : RequestRun} {nwk : NwkMain} {param buf got : ℕ}
  {given : Prop} {func : NwkCallback} {result : NwkMain × List NwkOutput}

theorem resume_keeps (output : NwkOutput) (nwk : NwkMain) (buf : ℕ) :
    NwkMain.SameCustody nwk (nwk.resume output) ∧
      NwkMain.KeepsHeaders nwk (nwk.resume output) buf := by
  unfold NwkMain.resume
  split
  · exact ⟨⟨rfl, rfl, rfl⟩, NwkMain.keepsHeaders_setPacket rfl rfl⟩
  · exact ⟨⟨rfl, rfl, rfl⟩, NwkMain.keepsHeaders_of_packets rfl⟩

theorem resumeAll_keeps (outputs : List NwkOutput) (nwk : NwkMain) (buf : ℕ) :
    NwkMain.SameCustody nwk (outputs.foldl NwkMain.resume nwk) ∧
      NwkMain.KeepsHeaders nwk (outputs.foldl NwkMain.resume nwk) buf := by
  induction outputs generalizing nwk with
  | nil => exact ⟨⟨rfl, rfl, rfl⟩, NwkMain.keepsHeaders_of_packets rfl⟩
  | cons output rest ih =>
    obtain ⟨hsame, hheaders⟩ := resume_keeps output nwk buf
    obtain ⟨hrest, hkeeps⟩ := ih (nwk.resume output)
    exact ⟨hsame.trans hrest, hheaders.trans hkeeps⟩

theorem take_eq_some (htake : run.take func param = some next) :
    (func, param) ∈ run.queue ∧
      next = { run with queue := run.queue.erase (func, param) } := by
  rw [take] at htake
  split at htake
  · exact ⟨‹_›, (some.inj htake).symm⟩
  · contradiction

theorem queuedFor_erase
    {queue : List (NwkCallback × ℕ)} (hmem : (func, param) ∈ queue) (buf : ℕ) :
    queuedFor buf (queue.erase (func, param)) + (param == buf).toNat =
      queuedFor buf queue := by
  have hperm := (List.perm_cons_erase hmem).countP_eq fun task => task.2 == buf
  rw [List.countP_cons] at hperm
  cases hbuf : param == buf with
  | true =>
    rw [hbuf, if_pos rfl] at hperm
    exact hperm.symm
  | false =>
    rw [hbuf, if_neg Bool.false_ne_true] at hperm
    exact hperm.symm

theorem kept_follow (hconserves : run.nwk.Conserves buf got given result)
    (hgiven : buf ∉ run.given)
    (hplaces : run.nwk.held buf + queuedFor buf run.queue + got = 1)
    (hmac : (.nldeDataConfirm, buf) ∈ run.queue → (run.nwk.packets buf).macHdr = true)
    (hnwk : (run.nwk.packets buf).nwkHdr = true) (hnot : ¬ given) :
    (run.follow result).Kept buf ∧
      ((run.follow result).nwk.packets buf).nwkHdr = true := by
  obtain ⟨hsame, hresumed⟩ := resumeAll_keeps result.2 result.1 buf
  have hnwk : ((run.follow result).nwk.packets buf).nwkHdr = true :=
    hresumed.nwkHdr (hconserves.headers.nwkHdr hnwk)
  have hnone : buf ∉ gifts result.2 := fun hmem => hnot (hconserves.gift hmem)
  refine ⟨⟨?_, ?_, ?_⟩, hnwk⟩
  · change buf ∉ run.given ∪ (gifts result.2).toFinset
    rw [Finset.mem_union, List.mem_toFinset]
    exact not_or_intro hgiven hnone
  · change (result.2.foldl NwkMain.resume result.1).held buf +
      queuedFor buf (run.queue ++ tasks result.2) = 1
    have hcount := hconserves.count
    rw [passed, List.count_eq_zero.mpr hnone] at hcount
    rw [hsame.held, queuedFor_append]
    omega
  · intro hmem
    refine ⟨?_, hnwk⟩
    apply hresumed.macHdr
    rcases List.mem_append.mp hmem with hold | hnew
    · exact hconserves.headers.macHdr (hmac hold)
    · exact hconserves.confirm hnew

structure Sound (run : RequestRun) (buf : ℕ) : Prop where
  kept : run.Kept buf
  nwkHdr : (run.nwk.packets buf).nwkHdr = true

theorem Sound.follow
    (hsound : run.Sound buf) (hconserves : run.nwk.Conserves buf 0 given result)
    (hnot : ¬ given) : (run.follow result).Sound buf := by
  obtain ⟨hkept, hnwk⟩ := kept_follow hconserves hsound.kept.given
    hsound.kept.places (fun hmem => (hsound.kept.headers hmem).1) hsound.nwkHdr
    hnot
  exact ⟨hkept, hnwk⟩

theorem Sound.follow_taken
    (hsound : run.Sound buf) (htake : run.take func param = some next)
    (hconserves : next.nwk.Conserves buf (param == buf).toNat given result)
    (hnot : ¬ given) : (next.follow result).Sound buf := by
  obtain ⟨hmem, rfl⟩ := take_eq_some htake
  have hqueue := queuedFor_erase hmem buf
  have hplaces := hsound.kept.places
  obtain ⟨hkept, hnwk⟩ := kept_follow hconserves hsound.kept.given (by
      change run.nwk.held buf + queuedFor buf run.queue = 1 at hplaces
      dsimp only
      omega)
    (fun hconfirm => (hsound.kept.headers (List.mem_of_mem_erase hconfirm)).1)
    hsound.nwkHdr hnot
  exact ⟨hkept, hnwk⟩

structure Custody (run : RequestRun) : Prop where
  waits : run.nwk.WaitsInOrder
  sound : ∀ buf ∈ run.requested, run.Sound buf

theorem custody_iff : run.Custody ↔ run.Answered ∧ run.Supported := by
  constructor
  · rintro ⟨hwaits, hsound⟩
    exact ⟨fun buf hbuf => (hsound buf hbuf).kept,
      ⟨hwaits, fun buf hbuf => (hsound buf hbuf).nwkHdr⟩⟩
  · rintro ⟨hanswered, hwaits, hnwk⟩
    exact ⟨hwaits, fun buf hbuf => ⟨hanswered buf hbuf, hnwk buf hbuf⟩⟩

theorem waitsInOrder_follow
    (hwaits : result.1.WaitsInOrder) : (run.follow result).nwk.WaitsInOrder :=
  hwaits.congr (resumeAll_keeps result.2 result.1 0).1.waitAlloc

theorem Custody.call (hcustody : run.Custody) {other : ℕ → Prop}
    (hconserves : ∀ buf, other buf → run.nwk.Conserves buf 0 False result)
    (hrequested : ∀ buf ∈ run.requested, other buf) {spare : ℕ}
    (hspare : other spare) : (run.follow result).Custody where
  waits := waitsInOrder_follow ((hconserves spare hspare).waits hcustody.waits)
  sound buf hbuf := by
    have hother := hrequested buf hbuf
    exact (hcustody.sound buf hbuf).follow (hconserves buf hother) not_false

theorem Custody.call_taken (hcustody : run.Custody) {taken : RequestRun} {given : ℕ → Prop}
    (htake : run.take func param = some taken)
    (hconserves : ∀ buf, taken.nwk.Conserves buf (param == buf).toNat (given buf)
      result)
    (hnot : ∀ buf ∈ run.requested, ¬ given buf) :
    (taken.follow result).Custody where
  waits := by
    obtain ⟨-, rfl⟩ := take_eq_some htake
    exact waitsInOrder_follow ((hconserves 0).waits hcustody.waits)
  sound buf hbuf := by
    have hrequested : taken.requested = run.requested := by
      obtain ⟨-, rfl⟩ := take_eq_some htake
      rfl
    change buf ∈ taken.requested at hbuf
    rw [hrequested] at hbuf
    exact (hcustody.sound buf hbuf).follow_taken htake (hconserves buf) (hnot buf hbuf)

theorem Custody.call_own (hcustody : run.Custody) (hown : param ∉ run.requested)
    (hconserves : ∀ buf, buf ≠ param → run.nwk.Conserves buf 0 False result) :
    (run.follow result).Custody := by
  refine hcustody.call hconserves ?_ (Nat.succ_ne_self param)
  intro buf hbuf
  exact ne_of_mem_of_not_mem hbuf hown

theorem Custody.call_optional
    (hcustody : run.Custody) (hown : ¬ (param ≠ 0 ∧ param ∈ run.requested))
    (hconserves : ∀ buf, (param ≠ 0 → buf ≠ param) →
      run.nwk.Conserves buf 0 False result) :
    (run.follow result).Custody := by
  refine hcustody.call hconserves ?_ fun _ => Nat.succ_ne_self param
  intro buf hbuf hparam
  have hnot : param ∉ run.requested := fun hmem => hown ⟨hparam, hmem⟩
  exact ne_of_mem_of_not_mem hbuf hnot

theorem zbNldeDataRequest_conserves (hbuf : buf ≠ param) (req : NldeDataReq) :
    nwk.Conserves buf 0 False (nwk.zbNldeDataRequest param req) := by
  unfold NwkMain.zbNldeDataRequest
  dsimp only
  split
  · exact NwkMain.SameCustody.conserves ⟨rfl, rfl, rfl⟩
      (NwkMain.keepsHeaders_of_packets (update_of_ne hbuf ..))
      (avoids_schedule _ hbuf)
  · exact NwkMain.SameCustody.conserves ⟨rfl, rfl, rfl⟩
      (NwkMain.keepsHeaders_setPacket_of_ne hbuf) (avoids_schedule _ hbuf)

theorem Sound.request {req : NldeDataReq} (hsound : run.Sound buf) (hbuf : buf ≠ param) :
    (run.request param req).Sound buf := by
  have hrequesting : Sound
      { run with
        requested := insert param run.requested
        given := run.given.erase param } buf := by
    refine ⟨⟨?_, hsound.kept.places, hsound.kept.headers⟩, hsound.nwkHdr⟩
    exact fun hmem => hsound.kept.given (Finset.mem_of_mem_erase hmem)
  exact hrequesting.follow (zbNldeDataRequest_conserves hbuf req) not_false

theorem zbNldeDataRequest_joined
    (nwk : NwkMain) (param : ℕ) (req : NldeDataReq) (hjoined : nwk.mesh.zg.joined = true) :
    (nwk.zbNldeDataRequest param req).2 = [.schedule .nwkForward param] ∧
      (nwk.zbNldeDataRequest param req).1.held param = nwk.held param ∧
      ((nwk.zbNldeDataRequest param req).1.packets param).nwkHdr = true := by
  unfold NwkMain.zbNldeDataRequest
  dsimp only
  rw [if_pos hjoined]
  exact ⟨rfl, rfl, by simp [NwkMain.setPacket]⟩

theorem sound_request (req : NldeDataReq) (hunused : run.Unused param)
    (hjoined : run.nwk.mesh.zg.joined = true) :
    (run.request param req).Sound param := by
  obtain ⟨houtputs, hheld, hnwk⟩ := zbNldeDataRequest_joined run.nwk param req hjoined
  have hplaces : run.nwk.held param + queuedFor param run.queue = 0 := hunused.2
  have hnone : (.nldeDataConfirm, param) ∉ run.queue := by
    intro hmem
    have herase := queuedFor_erase hmem param
    rw [beq_self_eq_true] at herase
    change _ + 1 = _ at herase
    omega
  have hrequest : run.request param req =
      { nwk := (run.nwk.zbNldeDataRequest param req).1
        queue := run.queue ++ [(.nwkForward, param)]
        requested := insert param run.requested
        given := run.given.erase param ∪ ∅ } := by
    rw [request, follow, houtputs]
    rfl
  rw [hrequest]
  refine ⟨⟨?_, ?_, ?_⟩, hnwk⟩
  · simp
  · change (run.nwk.zbNldeDataRequest param req).1.held param +
      queuedFor param (run.queue ++ [(.nwkForward, param)]) = 1
    have hone : queuedFor param [(.nwkForward, param)] = 1 := by simp [queuedFor]
    rw [hheld, queuedFor_append, hone]
    omega
  · intro hmem
    rcases List.mem_append.mp hmem with hold | hnew
    · exact absurd hold hnone
    · simp at hnew

theorem custody_request
    (hcustody : run.Custody) (req : NldeDataReq) (hunused : run.Unused param)
    (hjoined : run.nwk.mesh.zg.joined = true) :
    (run.request param req).Custody where
  waits := waitsInOrder_follow
    ((zbNldeDataRequest_conserves (Nat.succ_ne_self param) req).waits hcustody.waits)
  sound buf hbuf := by
    by_cases heq : buf = param
    · rw [heq]
      exact sound_request req hunused hjoined
    · have hold : buf ∈ run.requested := Finset.mem_of_mem_insert_of_ne hbuf heq
      exact (hcustody.sound buf hold).request heq

theorem not_answered_request
    (req : NldeDataReq) (hjoined : run.nwk.mesh.zg.joined ≠ true) :
    ¬ (run.request param req).Answered := by
  intro hanswered
  have hrequest : run.nwk.zbNldeDataRequest param req = (run.nwk.setPacket param
          { run.nwk.packets param with macHdr := false, nwkHdr := false },
        [.schedule .nldeDataConfirm param]) := by
    rw [NwkMain.zbNldeDataRequest]
    exact if_neg hjoined
  have hkept := hanswered param (Finset.mem_insert_self param run.requested)
  have hheaders := (hkept.headers (by
    rw [request, follow, hrequest]
    exact List.mem_append_right _ List.mem_cons_self)).1
  rw [request, follow, hrequest] at hheaders
  simp [NwkMain.resume, NwkMain.setPacket] at hheaders

/-! ## Confirms -/

theorem macHeader_keeps (nwk : NwkMain) (param buf : ℕ) :
    nwk.SameCustody (macHeader nwk param) ∧
      nwk.KeepsHeaders (macHeader nwk param) buf := by
  refine ⟨⟨rfl, rfl, rfl⟩, ?_⟩
  by_cases hbuf : buf = param
  · have hpacket : (macHeader nwk param).packets buf =
        { nwk.packets param with macHdr := true } := by
      rw [hbuf]
      exact update_self ..
    constructor
    · rw [hpacket]
      exact fun _ => rfl
    · rw [hpacket, hbuf]
      exact id
  · exact NwkMain.keepsHeaders_setPacket_of_ne hbuf

theorem internalHandle_macHeader :
    (macHeader nwk param).InternalHandle param ↔ nwk.InternalHandle param := by
  have hpacket : (macHeader nwk param).packets param =
      { nwk.packets param with macHdr := true } := update_self ..
  unfold NwkMain.InternalHandle
  rw [hpacket]
  rfl

theorem confirm_conserves (success : Bool) (buf : ℕ) :
    nwk.Conserves buf (param == buf).toNat (buf = param ∧ nwk.InternalHandle param)
      (macHeader nwk param, (macHeader nwk param).zbMcpsDataConfirm param success) := by
  obtain ⟨hsame, hheaders⟩ := macHeader_keeps nwk param buf
  have hmac : ((macHeader nwk param).packets param).macHdr = true :=
    congrArg NwkPacket.macHdr (update_self param _ nwk.packets)
  have hconfirmed := NwkMain.Conserves.of_same
    (NwkMain.zbMcpsDataConfirm_conserves success fun _ => hmac) hsame hheaders
  rw [internalHandle_macHeader] at hconfirmed
  exact hconfirmed

theorem Custody.confirm
    (hcustody : run.Custody) (htake : run.take .nldeDataConfirm param = some next) :
    Custody { next with requested := next.requested.erase param } := by
  obtain ⟨hmem, rfl⟩ := take_eq_some htake
  refine ⟨hcustody.waits, fun buf hbuf => ?_⟩
  obtain ⟨hne, hrequested⟩ := Finset.mem_erase.mp hbuf
  obtain ⟨⟨hgiven, hplaces, hheaders⟩, hnwk⟩ := hcustody.sound buf hrequested
  have herase := queuedFor_erase hmem buf
  rw [beq_false_of_ne hne.symm] at herase
  refine ⟨⟨hgiven, ?_, ?_⟩, hnwk⟩
  · change run.nwk.held buf + queuedFor buf run.queue = 1 at hplaces
    change run.nwk.held buf + queuedFor buf (run.queue.erase _) = 1
    rw [← hplaces, ← herase]
    rfl
  · exact fun hconfirm => hheaders (List.mem_of_mem_erase hconfirm)

theorem Custody.other (hcustody : run.Custody) (nwk : NwkMain) :
    Custody { run with nwk := run.changeOthers nwk } := by
  have hwaits : (run.changeOthers nwk).waitAlloc = run.nwk.waitAlloc := rfl
  refine ⟨hcustody.waits.congr hwaits, fun buf hbuf => ?_⟩
  obtain ⟨⟨hgiven, hplaces, hheaders⟩, hnwk⟩ := hcustody.sound buf hbuf
  have hpacket : (run.changeOthers nwk).packets buf = run.nwk.packets buf := if_pos hbuf
  refine ⟨⟨hgiven, hplaces, ?_⟩, ?_⟩
  · dsimp only
    rw [hpacket]
    exact hheaders
  · dsimp only
    rw [hpacket]
    exact hnwk

theorem Custody.step
    {event : RequestEvent} (hcustody : run.Custody) (hmeets : run.Meets event)
    (hstep : run.step event = some next) : next.Custody := by
  cases event with
  | request param req =>
    rw [RequestRun.step] at hstep
    split at hstep
    · rename_i hunused
      obtain rfl := some.inj hstep
      exact custody_request hcustody req hunused (hmeets hunused)
    · contradiction
  | send param packet =>
    rw [RequestRun.step] at hstep
    split at hstep
    · contradiction
    · rename_i hown
      obtain rfl := some.inj hstep
      refine hcustody.call_own hown fun buf hbuf => ?_
      exact NwkMain.SameCustody.conserves ⟨rfl, rfl, rfl⟩
        (NwkMain.keepsHeaders_setPacket_of_ne hbuf) (avoids_schedule _ hbuf)
  | forward param =>
    obtain ⟨taken, htake, hrest⟩ := bind_eq_some_iff.mp hstep
    obtain ⟨result, hforward, rfl⟩ := map_eq_some_iff.mp hrest
    refine hcustody.call_taken htake
      (fun buf => NwkMain.zbNwkForward_conserves hforward) ?_
    obtain ⟨hmem, rfl⟩ := take_eq_some htake
    rintro buf hbuf ⟨rfl, hundeliverable⟩
    exact hmeets hbuf hmem hundeliverable
  | macConfirm param success =>
    obtain ⟨taken, htake, hrest⟩ := bind_eq_some_iff.mp hstep
    obtain rfl := some.inj hrest
    refine hcustody.call_taken htake (confirm_conserves success) ?_
    obtain ⟨hmem, rfl⟩ := take_eq_some htake
    rintro buf hbuf ⟨rfl, hinternal⟩
    exact hmeets hbuf hmem hinternal
  | brConfirm param success =>
    obtain ⟨taken, htake, hrest⟩ := bind_eq_some_iff.mp hstep
    obtain rfl := some.inj hrest
    refine hcustody.call_taken htake (confirm_conserves success) ?_
    obtain ⟨hmem, rfl⟩ := take_eq_some htake
    rintro buf hbuf ⟨rfl, hinternal⟩
    exact hmeets hbuf hmem hinternal
  | confirm param =>
    obtain ⟨taken, htake, hrest⟩ := bind_eq_some_iff.mp hstep
    obtain rfl := some.inj hrest
    exact hcustody.confirm htake
  | transmit param =>
    rw [RequestRun.step] at hstep
    split at hstep
    · contradiction
    · rename_i hown
      obtain ⟨result, hsend, rfl⟩ := map_eq_some_iff.mp hstep
      exact hcustody.call_optional hown fun buf hbuf =>
        NwkMain.nwkBroadcastTransmition_conserves hbuf hsend
  | receive param packet lqi unsecure =>
    rw [RequestRun.step] at hstep
    split at hstep
    · contradiction
    · rename_i hown
      obtain ⟨result, hindication, rfl⟩ := map_eq_some_iff.mp hstep
      exact hcustody.call_own hown fun buf hbuf =>
        NwkMain.zbMcpsDataIndication_conserves hbuf hindication
  | newBuffer param =>
    rw [RequestRun.step] at hstep
    split at hstep
    · contradiction
    · rename_i hown
      obtain rfl := some.inj hstep
      exact hcustody.call_optional hown fun buf hbuf =>
        NwkMain.newBufferAllocated_conserves hcustody.waits hbuf
  | frame param =>
    rw [RequestRun.step] at hstep
    split at hstep
    · contradiction
    · rename_i hown
      obtain rfl := some.inj hstep
      exact hcustody.call_own hown fun buf hbuf =>
        NwkMain.nwkFrameIndication_conserves hbuf
  | discover param =>
    rw [RequestRun.step] at hstep
    split at hstep
    · contradiction
    · rename_i hown
      obtain ⟨result, hstarts, rfl⟩ := map_eq_some_iff.mp hstep
      exact hcustody.call_own hown fun buf hbuf =>
        NwkMain.zbNwkMeshInitiateRouteDiscovery_conserves hbuf hstarts
  | pendingExpiry =>
    obtain rfl := some.inj hstep
    have hexpiry := run.nwk.zbNwkMeshExpiryPending_conserves
    exact
      { waits := waitsInOrder_follow ((hexpiry 0).1.waits hcustody.waits)
        sound := fun buf hbuf =>
          (hcustody.sound buf hbuf).follow (hexpiry buf).1 (hmeets buf hbuf) }
  | leave param rejoin =>
    rw [RequestRun.step] at hstep
    split at hstep
    · contradiction
    · rename_i hown
      obtain rfl := some.inj hstep
      exact hcustody.call_own hown fun buf hbuf =>
        NwkMain.zbNwkDoLeave_conserves hbuf rejoin
  | other next =>
    obtain rfl := some.inj hstep
    exact hcustody.other next

theorem not_answered_follow
    (hrequested : buf ∈ run.requested) (hgift : buf ∈ gifts result.2) :
    ¬ (run.follow result).Answered := by
  intro hanswered
  apply (hanswered buf hrequested).given
  exact Finset.mem_union_right _ (List.mem_toFinset.mpr hgift)

theorem gifts_of_internalHandle (hinternal : nwk.InternalHandle param) (success : Bool) :
    param ∈ gifts ((macHeader nwk param).zbMcpsDataConfirm param success) := by
  have hinternal := internalHandle_macHeader.mpr hinternal
  rcases (macHeader nwk param).zbMcpsDataConfirm_spec param success with
    ⟨-, -, hgifts⟩ | ⟨hnot, -⟩
  · rw [hgifts]
    exact List.mem_singleton_self param
  · exact absurd hinternal hnot

theorem exists_take (hmem : (func, param) ∈ run.queue) :
    ∃ taken, run.take func param = some taken ∧ taken.nwk = run.nwk ∧
      taken.requested = run.requested :=
  ⟨_, if_pos hmem, rfl, rfl⟩

theorem meets_of_answered {event : RequestEvent}
    (hall : ∀ next, run.step event = some next → next.Answered) :
    run.Meets event := by
  cases event with
  | request param req =>
    intro hunused
    by_contra hjoined
    exact not_answered_request req hjoined (hall _ (if_pos hunused))
  | forward param =>
    intro hrequested hmem hundeliverable
    obtain ⟨taken, htake, hnwk, hsame⟩ := exists_take hmem
    obtain ⟨result, hforward, hgift⟩ := hundeliverable.forward
    have hstep : run.step (.forward param) = some (taken.follow result) := by
      rw [step, htake]
      dsimp only [bind_eq_bind, bind_some]
      rw [hnwk, hforward]
      rfl
    exact not_answered_follow (hsame ▸ hrequested) hgift (hall _ hstep)
  | macConfirm param success =>
    intro hrequested hmem hinternal
    obtain ⟨taken, htake, hnwk, hsame⟩ := exists_take hmem
    have hgift := gifts_of_internalHandle hinternal success
    have hstep : run.step (.macConfirm param success) =
        some (taken.follow (macHeader run.nwk param,
          (macHeader run.nwk param).zbMcpsDataConfirm param success)) := by
      rw [step, htake, ← hnwk]
      rfl
    exact not_answered_follow (hsame ▸ hrequested) hgift (hall _ hstep)
  | brConfirm param success =>
    intro hrequested hmem hinternal
    obtain ⟨taken, htake, hnwk, hsame⟩ := exists_take hmem
    have hgift := gifts_of_internalHandle hinternal success
    have hstep : run.step (.brConfirm param success) =
        some (taken.follow (macHeader run.nwk param,
          (macHeader run.nwk param).zbMcpsDataConfirm param success)) := by
      rw [step, htake, ← hnwk]
      rfl
    exact not_answered_follow (hsame ▸ hrequested) hgift (hall _ hstep)
  | pendingExpiry =>
    intro buf hrequested hexpires
    have hgift := (run.nwk.zbNwkMeshExpiryPending_conserves buf).2 hexpires
    exact not_answered_follow hrequested hgift (hall _ rfl)
  | _ => trivial

theorem custody_start (hwaits : nwk.WaitsInOrder) (queue : List (NwkCallback × ℕ)) :
    (start nwk queue).Custody :=
  ⟨hwaits, fun buf hbuf => absurd hbuf (Finset.notMem_empty buf)⟩

/-- A requested packet stays with the layer until its confirm, with the headers
which the confirm cuts off, exactly in the runs whose steps meet the
condition. -/
theorem everyState_answered_iff
    {queue : List (NwkCallback × ℕ)} {events : List RequestEvent}
    (hwaits : nwk.WaitsInOrder) :
    EveryState step Answered (start nwk queue) events ↔
      AlongRun step Meets (start nwk queue) events := by
  obtain ⟨hanswered, hsupported⟩ := custody_iff.mp (custody_start hwaits queue)
  refine everyState_iff_alongRun ?_ ?_ hanswered hsupported
  · intro run event hanswered hsupported
    have hcustody := custody_iff.mpr ⟨hanswered, hsupported⟩
    refine ⟨meets_of_answered, fun hmeets next hstep => ?_⟩
    exact (custody_iff.mp (hcustody.step hmeets hstep)).1
  · intro run event next hanswered hsupported hmeets hstep
    have hcustody := custody_iff.mpr ⟨hanswered, hsupported⟩
    exact (custody_iff.mp (hcustody.step hmeets hstep)).2

def joinedNwk : NwkMain :=
  broadcastingNwk.setZg { broadcastingNwk.mesh.zg with joined := true }

def requestTo (dstAddr : ℕ) : NldeDataReq :=
  { dstAddr := dstAddr
    radius := 0
    discoverRoute := false
    securityEnable := false
    ndsuHandle := 0 }

/-- A broadcast is sent once, as there is no neighbor to relay it, and
confirmed. -/
theorem everyState_answered_broadcast : EveryState step Answered (start joinedNwk [])
      [.request 1 (requestTo nwkBroadcastAllDevices), .forward 1, .transmit 2,
        .macConfirm 1 true, .confirm 1] :=
  (everyState_answered_iff ⟨fun _ => rfl, by decide⟩).mpr (by decide +kernel)

/-- A packet for an unknown device is freed, and there is no confirm. -/
theorem not_everyState_answered_unknownDevice :
    ¬ EveryState step Answered (start joinedNwk [])
      [.request 1 (requestTo 5), .forward 1] := by
  intro hevery
  have hlast : (TransitionSystem.run step (start joinedNwk [])
      [.request 1 (requestTo 5), .forward 1]).any (fun last =>
        1 ∈ last.requested ∧ 1 ∈ last.given) = true := by
    decide +kernel
  obtain ⟨last, hrun, hfacts⟩ := (any_eq_true _ _).mp hlast
  obtain ⟨hrequested, hgiven⟩ := of_decide_eq_true hfacts
  exact (hevery.last hrun 1 hrequested).given hgiven

end RequestRun

end Zboss
