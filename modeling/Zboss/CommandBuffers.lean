import Zboss.CommandFrames

/-!
# Buffers of received commands

Which commands have their buffer disposed of exactly once, and the pool of
buffers in runs: it stays whole exactly as long as no other command or
indication comes.
-/

namespace Zboss

open Option List TransitionSystem

theorem length_filterMap_disposal (outputs : List MeshOutput) :
    (outputs.filterMap (·.disposal)).length = bufDisposals outputs := by
  induction outputs with
  | nil => rfl
  | cons output rest ih =>
    rw [bufDisposals, countP_cons, ← bufDisposals, ← ih]
    cases output <;> rfl

/-- The handler, if it returns, disposes of its buffer exactly once. -/
def DisposesOnce (result : Option (CommandDevice × List Disposal)) : Prop :=
  ∀ device disposals, result = some (device, disposals) → disposals.length = 1

theorem disposesOnce_some {device : CommandDevice} {disposals : List Disposal} :
    DisposesOnce (some (device, disposals)) ↔ disposals.length = 1 := by
  constructor
  · intro honce
    exact honce device disposals rfl
  · rintro hlength _ _ heq
    obtain ⟨-, rfl⟩ := some_pair_inj heq
    exact hlength

theorem disposesOnce_map
    {α : Type} {result : Option α} {f : α → CommandDevice × List Disposal}
    (hlength : ∀ value, result = some value → (f value).2.length = 1) :
    DisposesOnce (result.map f) := by
  intro device disposals heq
  obtain ⟨value, hvalue, hf⟩ := map_eq_some_iff.mp heq
  have honce := hlength value hvalue
  rw [hf] at honce
  exact honce

namespace CommandDevice

theorem leaveFromNeighbor_once
    (device : CommandDevice) (nbt : NeighborTblEnt) (lp : LeavePayload) :
    (device.leaveFromNeighbor nbt lp).2.length = 1 := by
  unfold leaveFromNeighbor
  dsimp only
  split
  · rfl
  · split
    · generalize (if lp.request then device
        else { device with inBufRequests := device.inBufRequests + 1 }) = left
      split
      · rfl
      · rfl
    · rfl

theorem zbNwkLeaveHandler_once (device : CommandDevice) (srcAddr : ℕ) (lp : LeavePayload) :
    DisposesOnce (device.zbNwkLeaveHandler srcAddr lp) := by
  intro after disposals hleave
  obtain ⟨⟨addr, ret⟩, -, hrest⟩ := bind_eq_some_iff.mp hleave
  dsimp only at hrest
  cases ret with
  | error err =>
    obtain ⟨-, rfl⟩ := some_pair_inj hrest
    rfl
  | ok addrRef =>
    dsimp only at hrest
    split at hrest
    · split at hrest
      · obtain ⟨-, rfl⟩ := some_pair_inj hrest
        rfl
      · obtain ⟨-, rfl⟩ := some_pair_inj hrest
        rfl
    · have heq := some.inj hrest
      have honce := leaveFromNeighbor_once (device.setZg { device.zg with addr := addr })
        ((device.setZg { device.zg with addr := addr }).zg.neighbor.baseNeighbor
            ((device.setZg { device.zg with addr := addr }).zg.neighbor.addrToNeighbor
                addrRef)) lp
      rw [heq] at honce
      exact honce

theorem networkUpdate_once (draws : List UInt16) (panid : PanidDevice) (param : ℕ)
    (calls : List PanidCall) {after : PanidDevice}
    (hupdate : zbPanidConflictNetworkUpdate draws panid param = some (after, calls)) :
    (calls.filterMap (·.disposal)).length = 1 := by
  obtain ⟨newPanid, -, heq⟩ := map_eq_some_iff.mp hupdate
  obtain ⟨-, rfl⟩ := Prod.mk.inj heq
  rfl

theorem nwkReportIndication_once
    {draws : List UInt16} {panid after : PanidDevice} {param : ℕ}
    {report : NwkReportCmd} {calls : List PanidCall}
    (hreport : nwkReportIndication draws panid param report = some (after, calls)) :
    (calls.filterMap (·.disposal)).length = 1 := by
  unfold nwkReportIndication at hreport
  split at hreport
  · unfold zbPanidConflictGotNetworkReport at hreport
    split at hreport
    · obtain ⟨-, rfl⟩ := some_pair_inj hreport
      rfl
    · exact networkUpdate_once _ _ _ _ hreport
  · obtain ⟨-, rfl⟩ := some_pair_inj hreport
    rfl

theorem nlmeRejoinResponse_once
    {nwk after : RejoinNwk} {param : ℕ} {frame : RejoinResponseFrame}
    {freed : List ℕ} (hnone : nwk.callbacks = [])
    (hresponse : nwk.nlmeRejoinResponse param frame = some (after, freed)) :
    freed.length + after.callbacks.length = 1 := by
  unfold RejoinNwk.nlmeRejoinResponse at hresponse
  split at hresponse
  · obtain ⟨i, -, hresponse⟩ := bind_eq_some_iff.mp hresponse
    obtain ⟨parent, -, hresponse⟩ := bind_eq_some_iff.mp hresponse
    split at hresponse
    · obtain ⟨rfl, rfl⟩ := some_pair_inj hresponse
      simp [RejoinNwk.cancelTimeout, RejoinNwk.schedule, hnone]
    · obtain ⟨rfl, rfl⟩ := some_pair_inj hresponse
      simp [RejoinNwk.cancelTimeout, RejoinNwk.schedule, RejoinNwk.setCandidate, hnone]
  · obtain ⟨rfl, rfl⟩ := some_pair_inj hresponse
    rw [hnone]
    rfl

theorem length_nwkUpdateIndication (role : StackRole) (panid : PanidDevice) (param : ℕ)
    (upd : NwkUpdateCmd) :
    ((nwkUpdateIndication role panid param upd).2.filterMap
      (·.disposal)).length = if panid.Accepts upd then 0 else 1 := by
  unfold nwkUpdateIndication
  split
  · rfl
  · rfl

def MishandlesNwk (device : CommandDevice) : ReceivedNwkCommand → Prop
  | .routeReply frame cmd =>
      device.role = .router ∧ device.joinedPro = false ∧ RrepConfirms device.mesh frame cmd
  | .networkUpdate upd => device.panid.Accepts upd
  | _ => False

theorem nwkCommandIndication_once_iff
    (device : CommandDevice) (param : ℕ) (command : ReceivedNwkCommand) :
    DisposesOnce (device.nwkCommandIndication param command) ↔
      ¬ device.MishandlesNwk command := by
  cases command with
  | leave srcAddr lp => exact iff_of_true (device.zbNwkLeaveHandler_once srcAddr lp) id
  | routeRequest frame cmd =>
    refine iff_of_true ?_ id
    rw [nwkCommandIndication]
    split
    · have honce := bufDisposals_rreqHandler device.mesh frame cmd
      cases hmesh : zbNwkMeshRreqHandler device.mesh frame cmd with
      | mk mesh outputs =>
        rw [hmesh] at honce
        exact disposesOnce_some.mpr ((length_filterMap_disposal outputs).trans honce)
    · exact disposesOnce_some.mpr rfl
  | routeReply frame cmd =>
    rw [nwkCommandIndication, MishandlesNwk]
    split
    · rename_i hrouter
      have honce := bufDisposals_rrepHandler device.mesh frame cmd
      cases hmesh : zbNwkMeshRrepHandler device.mesh frame cmd with
      | mk mesh outputs =>
        rw [hmesh] at honce
        rw [disposesOnce_some, length_filterMap_disposal, honce]
        exact not_congr ⟨fun h => ⟨hrouter.1, hrouter.2, h⟩, fun h => h.2.2⟩
    · rename_i hother
      refine iff_of_true (disposesOnce_some.mpr rfl) ?_
      rintro ⟨hrole, hpro, -⟩
      exact hother ⟨hrole, hpro⟩
  | rejoinRequest frame =>
    refine iff_of_true ?_ id
    rw [nwkCommandIndication]
    split
    · exact disposesOnce_map fun value _ => rfl
    · exact disposesOnce_some.mpr rfl
  | networkReport report draws =>
    refine iff_of_true ?_ id
    rw [nwkCommandIndication]
    split
    · refine disposesOnce_map ?_
      rintro ⟨panid, calls⟩ hreport
      exact nwkReportIndication_once hreport
    · exact disposesOnce_some.mpr rfl
  | networkStatus status networkAddr =>
    refine iff_of_true ?_ id
    rw [nwkCommandIndication]
    split
    · exact disposesOnce_some.mpr rfl
    · exact disposesOnce_some.mpr rfl
  | rejoinResponse frame =>
    refine iff_of_true ?_ id
    rw [nwkCommandIndication]
    refine disposesOnce_map ?_
    rintro ⟨nwk, freed⟩ hresponse
    have honce := nlmeRejoinResponse_once (by rfl) hresponse
    simpa using honce
  | networkUpdate upd =>
    rw [nwkCommandIndication, MishandlesNwk]
    dsimp only
    rw [disposesOnce_some, length_nwkUpdateIndication]
    by_cases haccepts : device.panid.Accepts upd
    · simp [haccepts]
    · simp [haccepts]
  | unknown commandId => exact iff_of_true (disposesOnce_some.mpr rfl) id

/-! ## Commands of the application support layer -/

theorem passKeyToChild_once (device : CommandDevice) (destAddress : IeeeAddr) :
    DisposesOnce (device.passKeyToChild destAddress) := by
  intro after disposals hpass
  obtain ⟨⟨zg, row⟩, -, hrest⟩ := bind_eq_some_iff.mp hpass
  dsimp only at hrest
  cases row with
  | none =>
    obtain ⟨-, rfl⟩ := some_pair_inj hrest
    rfl
  | some n =>
    dsimp only at hrest
    split at hrest
    · obtain ⟨-, rfl⟩ := some_pair_inj hrest
      rfl
    · obtain ⟨-, rfl⟩ := some_pair_inj hrest
      rfl

def IgnoresKey (device : CommandDevice) (cmd : TransportKeyCmd) : Prop :=
  cmd.standardNetworkKey = false ∨ (device.role = .endDevice ∧
      cmd.destAddress ≠ device.zg.extendedAddress ∧ cmd.destAddress ≠ .zero)

theorem zbApsInTransportKey_once_iff (device : CommandDevice) (cmd : TransportKeyCmd) :
    DisposesOnce (device.zbApsInTransportKey cmd) ↔ ¬ device.IgnoresKey cmd := by
  unfold zbApsInTransportKey IgnoresKey
  cases hkey : cmd.standardNetworkKey with
  | false =>
    refine iff_of_false ?_ (not_not_intro (Or.inl rfl))
    intro honce
    exact absurd (disposesOnce_some.mp honce) (by decide)
  | true =>
    rw [if_pos rfl]
    by_cases hmine : cmd.destAddress = device.zg.extendedAddress ∨ cmd.destAddress = .zero
    · rw [if_pos hmine]
      refine iff_of_true (disposesOnce_some.mpr rfl) ?_
      rintro (hfalse | ⟨-, hother, hsome⟩)
      · exact nomatch hfalse
      · exact hmine.elim hother hsome
    · rw [if_neg hmine]
      obtain ⟨hother, hsome⟩ := not_or.mp hmine
      cases hrole : device.role with
      | router =>
        refine iff_of_true (device.passKeyToChild_once cmd.destAddress) ?_
        rintro (hfalse | ⟨hfalse, -⟩)
        · exact nomatch hfalse
        · exact nomatch hfalse
      | endDevice =>
        refine iff_of_false ?_ (not_not_intro (Or.inr ⟨rfl, hother, hsome⟩))
        intro honce
        exact absurd (disposesOnce_some.mp honce) (by decide)

def MishandlesAps (device : CommandDevice) : ReceivedApsCommand → Prop
  | .transportKey cmd => device.joinedPro = true ∨ device.IgnoresKey cmd
  | .updateDevice _ _ _ _ | .removeDevice _ _ | .requestKey _ _ =>
      device.role = .router ∧ device.joinedPro = true
  | .switchKey _ _ | .unknown _ => False

theorem routerCommand_once_iff (device : CommandDevice)
    {handled : Option (CommandDevice × List Disposal)}
    (honce : DisposesOnce handled) :
    DisposesOnce (match device.role with
        | .router => if device.joinedPro then some (device, []) else handled
        | .endDevice => some (device, [.freed])) ↔
      ¬ (device.role = .router ∧ device.joinedPro = true) := by
  cases device.role with
  | endDevice =>
    refine iff_of_true (disposesOnce_some.mpr rfl) ?_
    rintro ⟨hfalse, -⟩
    exact nomatch hfalse
  | router =>
    cases device.joinedPro with
    | true =>
      refine iff_of_false ?_ (not_not_intro ⟨rfl, rfl⟩)
      intro hpro
      exact absurd (disposesOnce_some.mp hpro) (by decide)
    | false =>
      refine iff_of_true honce ?_
      rintro ⟨-, hfalse⟩
      exact nomatch hfalse

theorem zbApsInUpdateDevice_once
    (device : CommandDevice) (srcAddr : ℕ) (deviceAddress : IeeeAddr)
    (deviceShortAddress : ℕ) (status : UpdateDeviceStatus) :
    DisposesOnce (device.zbApsInUpdateDevice srcAddr deviceAddress deviceShortAddress
        status) := by
  intro after disposals hupdate
  obtain ⟨⟨found, srcAddress⟩, -, hrest⟩ := bind_eq_some_iff.mp hupdate
  obtain ⟨⟨addr, ret⟩, -, hrest⟩ := bind_eq_some_iff.mp hrest
  obtain ⟨-, rfl⟩ := some_pair_inj hrest
  rfl

theorem zbApsInCommandHandle_once_iff
    (device : CommandDevice) (command : ReceivedApsCommand) :
    DisposesOnce (device.zbApsInCommandHandle command) ↔
      ¬ device.MishandlesAps command := by
  cases command with
  | transportKey cmd =>
    rw [zbApsInCommandHandle, MishandlesAps]
    cases device.joinedPro with
    | true =>
      refine iff_of_false ?_ (not_not_intro (Or.inl rfl))
      intro honce
      exact absurd (disposesOnce_some.mp honce) (by decide)
    | false =>
      refine (device.zbApsInTransportKey_once_iff cmd).trans ?_
      simp
  | updateDevice srcAddr deviceAddress deviceShortAddress status =>
    exact device.routerCommand_once_iff
      (device.zbApsInUpdateDevice_once srcAddr deviceAddress deviceShortAddress status)
  | removeDevice srcAddr childAddress =>
    exact device.routerCommand_once_iff (disposesOnce_map fun _ _ => rfl)
  | requestKey srcAddr keyType =>
    exact device.routerCommand_once_iff (disposesOnce_map fun _ _ => rfl)
  | switchKey srcAddr keySeqNumber =>
    refine iff_of_true ?_ id
    rw [zbApsInCommandHandle]
    split
    · exact disposesOnce_some.mpr rfl
    · exact disposesOnce_map fun _ _ => rfl
  | unknown commandId => exact iff_of_true (disposesOnce_some.mpr rfl) id

def callTask (device : CommandDevice) :
    CommandTask → Option (CommandDevice × List Disposal)
  | .transportKeyIndication ind => device.zdoTransportKeyIndication ind
  | .updateDeviceIndication ind => device.zdoUpdateDeviceIndication ind
  | _ => some (device, [.freed])

def MishandlesTask (device : CommandDevice) : CommandTask → Prop
  | .updateDeviceIndication ind =>
      ind.status = .deviceLeft ∧ ∃ zg, findLeft device.zg ind = some (zg, none)
  | _ => False

theorem zdoUpdateDeviceIndication_once_iff
    (device : CommandDevice) (ind : UpdateDeviceInd) :
    DisposesOnce (device.zdoUpdateDeviceIndication ind) ↔
      ¬ device.MishandlesTask (.updateDeviceIndication ind) := by
  unfold zdoUpdateDeviceIndication MishandlesTask
  split
  · rename_i hleft
    cases hfind : findLeft device.zg ind with
    | none =>
      refine iff_of_true (fun _ _ heq => nomatch heq) ?_
      rintro ⟨-, zg, hsome⟩
      rw [hfind] at hsome
      exact nomatch hsome
    | some found =>
      obtain ⟨zg, entry⟩ := found
      cases entry with
      | none =>
        refine iff_of_false ?_ (not_not_intro ⟨hleft, zg, hfind⟩)
        intro honce
        exact absurd (disposesOnce_some.mp honce) (by decide)
      | some addrRef =>
        refine iff_of_true (disposesOnce_some.mpr rfl) ?_
        rintro ⟨-, other, hnone⟩
        rw [hfind] at hnone
        exact nomatch (some_pair_inj hnone).2
  · rename_i hother
    exact iff_of_true (disposesOnce_some.mpr rfl) fun h => hother h.1

theorem callTask_once_iff (device : CommandDevice) (task : CommandTask) :
    DisposesOnce (device.callTask task) ↔ ¬ device.MishandlesTask task := by
  cases task with
  | updateDeviceIndication ind => exact device.zdoUpdateDeviceIndication_once_iff ind
  | transportKeyIndication ind => exact iff_of_true (disposesOnce_map fun _ _ => rfl) id
  | _ => exact iff_of_true (disposesOnce_some.mpr rfl) id

end CommandDevice

structure CommandPool where
  device : CommandDevice
  free : List ℕ
  held : List (CommandTask × ℕ)

inductive CommandEvent where
  | nwkCommand (command : ReceivedNwkCommand)
  | apsCommand (command : ReceivedApsCommand)
  | call (i : ℕ)
  | grantInBuf
  | other (device : CommandDevice)

namespace Disposal

def freedBuf (param : ℕ) : Disposal → Option ℕ
  | .freed => some param
  | .passed _ => none

def heldBuf (param : ℕ) : Disposal → Option (CommandTask × ℕ)
  | .freed => none
  | .passed task => some (task, param)

end Disposal

namespace CommandPool

def settle (pool : CommandPool) (param : ℕ)
    (result : CommandDevice × List Disposal) : CommandPool where
  device := result.1
  free := pool.free ++ result.2.filterMap (Disposal.freedBuf param)
  held := pool.held ++ result.2.filterMap (Disposal.heldBuf param)

def receive (pool : CommandPool) (handler : ℕ → Option (CommandDevice × List Disposal)) :
    Option CommandPool :=
  match pool.free with
  | [] => some pool
  | param :: rest => (handler param).map ({ pool with free := rest }.settle param)

def step (pool : CommandPool) : CommandEvent → Option CommandPool
  | .nwkCommand command =>
      pool.receive fun param => pool.device.nwkCommandIndication param command
  | .apsCommand command => pool.receive fun _ => pool.device.zbApsInCommandHandle command
  | .call i => do
      let (task, param) ← pool.held[i]?
      (pool.device.callTask task).map
        ({ pool with held := pool.held.eraseIdx i }.settle param)
  | .grantInBuf =>
      match pool.free with
      | [] => none
      | param :: rest =>
          if pool.device.inBufRequests ≠ 0 then
            some
              { device :=
                  { pool.device with
                    inBufRequests := pool.device.inBufRequests - 1 }
                free := rest
                held := pool.held ++ [(.nlmeLeaveIndication, param)] }
          else none
  | .other device => some { pool with device := device }

def places (pool : CommandPool) (buf : ℕ) : ℕ :=
  pool.free.count buf + (pool.held.map Prod.snd).count buf

def Whole (n : ℕ) (pool : CommandPool) : Prop :=
  ∀ buf, pool.places buf = if buf < n then 1 else 0

def start (n : ℕ) (device : CommandDevice) : CommandPool where
  device := device
  free := List.range n
  held := []

theorem whole_start (n : ℕ) (device : CommandDevice) : (start n device).Whole n := by
  intro buf
  rw [places, start]
  simp [count_range]

theorem count_disposals (param buf : ℕ) (disposals : List Disposal) :
    (disposals.filterMap (Disposal.freedBuf param)).count buf +
      ((disposals.filterMap (Disposal.heldBuf param)).map Prod.snd).count buf =
        if buf = param then disposals.length else 0 := by
  induction disposals with
  | nil => simp
  | cons disposal rest ih =>
    cases disposal with
    | freed =>
      simp only [filterMap_cons, Disposal.freedBuf, Disposal.heldBuf,
        count_cons, length_cons, beq_iff_eq]
      by_cases hsame : buf = param
      · simp only [hsame, ↓reduceIte] at ih ⊢
        omega
      · simp only [hsame, Ne.symm hsame, ↓reduceIte] at ih ⊢
        omega
    | passed task =>
      simp only [filterMap_cons, Disposal.freedBuf, Disposal.heldBuf,
        map_cons, count_cons, length_cons, beq_iff_eq]
      by_cases hsame : buf = param
      · simp only [hsame, ↓reduceIte] at ih ⊢
        omega
      · simp only [hsame, Ne.symm hsame, ↓reduceIte] at ih ⊢
        omega

theorem places_settle (pool : CommandPool) (param : ℕ) (device : CommandDevice)
    (disposals : List Disposal) (buf : ℕ) :
    (pool.settle param (device, disposals)).places buf =
      pool.places buf + if buf = param then disposals.length else 0 := by
  unfold places settle
  rw [count_append, map_append, count_append, ← count_disposals param buf disposals]
  dsimp only
  omega

def Taken (n param : ℕ) (pool : CommandPool) : Prop :=
  ∀ buf, pool.places buf + (if buf = param then 1 else 0) = if buf < n then 1 else 0

variable {n param : ℕ} {pool : CommandPool}

theorem whole_settle_iff (htaken : pool.Taken n param)
    (device : CommandDevice) (disposals : List Disposal) :
    (pool.settle param (device, disposals)).Whole n ↔ disposals.length = 1 := by
  constructor
  · intro hwhole
    have hplaces := hwhole param
    have hbefore := htaken param
    rw [places_settle, if_pos rfl] at hplaces
    rw [if_pos rfl] at hbefore
    omega
  · intro honce buf
    rw [places_settle, honce]
    exact htaken buf

theorem forall_settle_iff (htaken : pool.Taken n param)
    {result : Option (CommandDevice × List Disposal)} :
    (∀ next, result.map (pool.settle param) = some next → next.Whole n) ↔
      DisposesOnce result := by
  constructor
  · intro hall device disposals heq
    refine (whole_settle_iff htaken device disposals).mp (hall _ ?_)
    rw [heq]
    rfl
  · intro honce next hnext
    obtain ⟨⟨device, disposals⟩, heq, rfl⟩ := map_eq_some_iff.mp hnext
    exact (whole_settle_iff htaken device disposals).mpr (honce device disposals heq)

theorem taken_of_free {rest : List ℕ}
    (hwhole : pool.Whole n) (hfree : pool.free = param :: rest) :
    ({ pool with free := rest } : CommandPool).Taken n param := by
  intro buf
  have hplaces := hwhole buf
  rw [places, hfree, count_cons] at hplaces
  show rest.count buf + (pool.held.map Prod.snd).count buf + _ = _
  rw [← hplaces]
  by_cases hsame : buf = param
  · simp [hsame]
    omega
  · simp [hsame, Ne.symm hsame]

theorem taken_of_held {n i param : ℕ} {task : CommandTask}
    (hwhole : pool.Whole n) (hheld : pool.held[i]? = some (task, param)) :
    ({ pool with held := pool.held.eraseIdx i } : CommandPool).Taken n
      param := by
  intro buf
  have hplaces := hwhole buf
  obtain ⟨hi, hget⟩ := List.getElem?_eq_some_iff.mp hheld
  have hperm := getElem_cons_eraseIdx_perm hi
  have hcount := (hperm.map Prod.snd).count_eq buf
  rw [map_cons, hget, count_cons] at hcount
  rw [places, ← hcount] at hplaces
  show pool.free.count buf + ((pool.held.eraseIdx i).map Prod.snd).count buf +
    _ = _
  rw [← hplaces]
  by_cases hsame : buf = param
  · simp [hsame]
    omega
  · simp [hsame, Ne.symm hsame]

def Handled (pool : CommandPool) : CommandEvent → Prop
  | .nwkCommand command => pool.free = [] ∨ ¬ pool.device.MishandlesNwk command
  | .apsCommand command => pool.free = [] ∨ ¬ pool.device.MishandlesAps command
  | .call i => ∀ held, pool.held[i]? = some held → ¬ pool.device.MishandlesTask held.1
  | .grantInBuf | .other _ => True

theorem forall_receive_iff (hwhole : pool.Whole n)
    {handler : ℕ → Option (CommandDevice × List Disposal)} {bad : Prop}
    (honce : ∀ param, DisposesOnce (handler param) ↔ ¬ bad) :
    (∀ next, pool.receive handler = some next → next.Whole n) ↔
      pool.free = [] ∨ ¬ bad := by
  unfold receive
  cases hfree : pool.free with
  | nil =>
    refine iff_of_true ?_ (Or.inl rfl)
    rintro next hnext
    obtain rfl := some.inj hnext
    exact hwhole
  | cons param rest =>
    dsimp only
    rw [forall_settle_iff (taken_of_free hwhole hfree), honce param]
    exact (or_iff_right (cons_ne_nil _ _)).symm

theorem whole_step_iff (hwhole : pool.Whole n) (event : CommandEvent) :
    (∀ next, pool.step event = some next → next.Whole n) ↔ pool.Handled event := by
  cases event with
  | nwkCommand command =>
    exact forall_receive_iff hwhole fun param =>
      pool.device.nwkCommandIndication_once_iff param command
  | apsCommand command =>
    exact forall_receive_iff hwhole fun _ =>
      pool.device.zbApsInCommandHandle_once_iff command
  | call i =>
    show (∀ next, ((pool.held[i]?).bind fun held =>
        (pool.device.callTask held.1).map
          (({ pool with held := pool.held.eraseIdx i } : CommandPool).settle
            held.2)) = some next → next.Whole n) ↔
      ∀ held, pool.held[i]? = some held → ¬ pool.device.MishandlesTask held.1
    cases hheld : pool.held[i]? with
    | none =>
      refine iff_of_true ?_ ?_
      · intro next hnext
        exact nomatch hnext
      · intro held hsome
        exact nomatch hsome
    | some held =>
      obtain ⟨task, param⟩ := held
      refine (forall_settle_iff (taken_of_held hwhole hheld)).trans ?_
      rw [CommandDevice.callTask_once_iff]
      constructor
      · intro hgood held hsome
        rw [← some.inj hsome]
        exact hgood
      · intro hgood
        exact hgood _ rfl
  | grantInBuf =>
    refine iff_of_true ?_ trivial
    intro next hnext
    unfold step at hnext
    cases hfree : pool.free with
    | nil =>
      simp only [hfree] at hnext
      exact nomatch hnext
    | cons param rest =>
      simp only [hfree] at hnext
      split at hnext
      · obtain rfl := some.inj hnext
        intro buf
        rw [← taken_of_free hwhole hfree buf, places, places,
          map_append, count_append, ← Nat.add_assoc]
        by_cases hsame : buf = param
        · simp [hsame]
        · simp [hsame, Ne.symm hsame]
      · exact nomatch hnext
  | other device =>
    refine iff_of_true ?_ trivial
    intro next hnext
    obtain rfl := some.inj hnext
    exact hwhole

/-- No buffer is lost and none gets a second owner exactly in the runs all of
whose steps are handled. -/
theorem everyState_whole_iff
    (n : ℕ) (device : CommandDevice) (events : List CommandEvent) :
    EveryState step (Whole n) (start n device) events ↔
      AlongRun step Handled (start n device) events :=
  @everyState_iff_alongRun _ _ step Handled (Whole n) (fun _ => True)
    (fun _ event hwhole _ => whole_step_iff hwhole event)
    (fun _ _ _ _ _ _ _ => trivial) (start n device) events
    (whole_start n device) trivial

def networkRouter : CommandDevice where
  role := .router
  deviceType := .router
  mesh := activeRouter 0
  nib := ⟨4, 4, 5, 1, 0, 0, 0, 1, true⟩
  securityLevel := 5
  rejoinReqTable _ := 0
  rejoinReqTableCnt := 0
  panid :=
    { state := .idle
      joined := true
      joinedPro := false
      shortAddr := 1
      nwkManagerAddr := 0
      panId := 0x1AAA
      extPanId := 7
      depth := 1
      updateId := 4
      associationPermit := true
      beaconPayload := ⟨0, 1, 2, true, 1, true, 7, 0xFFFFFF, 4⟩
      beaconPayloadLength := 15
      knownPanids := .replicate 8 0
      newPanid := 0
      panidConflict := false }
  procedure :=
    { role := .router
      state := .idle
      candidates := []
      panidRef := fun _ => none
      extendedPanId := 0
      isRouter := true
      parent := none
      updateId := 4
      rxOnWhenIdle := true
      extendedAddress := .zero
      callbacks := []
      alarms := [] }
  inBufRequests := 0
  rejoinAfterLeave := false
  allowAuth := true

/-- The buffer of an accepted network update is lost. -/
theorem not_everyState_whole_update : ¬ EveryState step (Whole 1) (start 1 networkRouter)
      [.nwkCommand (.networkUpdate ⟨1, 7, 5, 0x1BBB⟩)] := by
  intro hevery
  have hobserved : (TransitionSystem.run step (start 1 networkRouter)
        [.nwkCommand (.networkUpdate ⟨1, 7, 5, 0x1BBB⟩)]).map (·.places 0) = some 0 := by
    decide +kernel
  obtain ⟨last, hrun, hplaces⟩ := map_eq_some_iff.mp hobserved
  exact absurd (hplaces.symm.trans (hevery.last hrun 0)) (by decide)

end CommandPool

end Zboss
