import Zboss.BindRequests
import Zboss.MatchedClusters
import Zboss.ZdpAnswers

/-!
# Toggled bindings

While nothing is lost and the devices have room, each request has one response,
a procedure binds or unbinds all pairs which match, as its first request to
unbind tells, and then the next procedure can begin.
-/

namespace Zboss

open Function Option BindDev TransitionSystem

/-! ## What matches -/

namespace ZdpFrame

def inClusters (frame : ZdpFrame) : List ℕ :=
  (List.range frame.numInCluster).map fun i => frame.word (15 + 2 * i)

def outClusters (frame : ZdpFrame) : List ℕ :=
  (List.range frame.numOutCluster).map fun i =>
    frame.word (16 + 2 * frame.numInCluster + 2 * i)

end ZdpFrame

def BindDev.of (first second : ZdpInd) : BindDev → ZdpFrame
  | .dev1 => first.frame
  | .dev2 => second.frame

def sharedClusters (sides : BindDev → ZdpFrame) : BindDev → List ℕ
  | .dev1 => matchedClusters (sides .dev1).outClusters (sides .dev2).inClusters
  | .dev2 => matchedClusters (sides .dev1).inClusters (sides .dev2).outClusters

def bindPairs (sides : BindDev → ZdpFrame) : List (BindDev × ℕ) :=
  (sharedClusters sides .dev1).map (dev1, ·) ++ (sharedClusters sides .dev2).map (dev2, ·)

/-- The request for a pair; `network` are the long addresses of the devices. -/
def pairReq (network : ℕ → IeeeAddr) (sides : BindDev → ZdpFrame)
    (pair : BindDev × ℕ) : ApsmeBindingReq where
  srcAddr := network (sides pair.1).bindingTarget
  srcEndpoint := (sides pair.1).srcEndp
  clusterid := .ofNat pair.2
  addrMode := apsAddrMode64EndpPresent
  dstAddrLong := network (sides pair.1.peer).bindingTarget
  dstAddrShort := 0
  dstEndpoint := (sides pair.1.peer).srcEndp

def PairBound (network : ℕ → IeeeAddr) (sides : BindDev → ZdpFrame)
    (device : ℕ → BindingState) (pair : BindDev × ℕ) : Prop :=
  (device (sides pair.1).bindingTarget).Bound (pairReq network sides pair)

namespace BindOutcome

def sides (outcome : BindOutcome) : BindDev → ZdpFrame :=
  of outcome.first outcome.second

/-- All pairs are bound if the checked one was not bound before, and none is
bound if it was. -/
def Toggled (network : ℕ → IeeeAddr) (outcome : BindOutcome) : Prop :=
  ∃ checked, (bindPairs outcome.sides).head? = some checked ∧
    (PairBound network outcome.sides outcome.before checked →
      ∀ pair ∈ bindPairs outcome.sides,
        ¬PairBound network outcome.sides outcome.after pair) ∧
    (¬PairBound network outcome.sides outcome.before checked →
      ∀ pair ∈ bindPairs outcome.sides, PairBound network outcome.sides outcome.after pair)

end BindOutcome

namespace BindFate

def requests : BindFate → List ZdpInd
  | .invalid ind => [ind]
  | .busy ind => [ind]
  | .expired ind => [ind]
  | .pair first second => [second, first]

def status : BindFate → UInt8
  | .invalid _ => ZdpStatus.invalidEp
  | .busy _ => ZdpStatus.timeout
  | .expired _ => ZdpStatus.timeout
  | .pair first second =>
      if first.frame.profileId = second.frame.profileId ∧
          bindPairs (of first second) ≠ [] then ZdpStatus.success
      else ZdpStatus.noMatch

def responses (fate : BindFate) : List ZdpResp :=
  fate.requests.map fun ind =>
    ⟨ZdpCluster.resp ZdpCluster.endDeviceBindReq, fate.status, ind.tsn, ind.srcAddr⟩

def begun : BindFate → Option (ZdpInd × ZdpInd)
  | .pair first second =>
      if (pair first second).status = ZdpStatus.success then some (first, second)
      else none
  | _ => none

end BindFate

namespace EndDeviceBindRun

def waiting (run : EndDeviceBindRun) : List ZdpInd :=
  if run.param2.isSome then [] else run.param1.toList

def inProgress (run : EndDeviceBindRun) : List (ZdpInd × ZdpInd) :=
  run.param1.toList.flatMap fun first =>
    run.param2.toList.map fun second => (first, second)

/-- A request waits with its timer, or the procedure still waits for something
after a number of steps which the matches bound. -/
def Returns (run : EndDeviceBindRun) : Prop :=
  match run.param1, run.param2 with
  | none, none => True
  | some first, none => run.bindTimer = some first
  | some first, some second => run.job.isSome ∧
      run.steps ≤ 2 * (bindPairs (of first second)).length + 4
  | none, some _ => False

structure History (network : ℕ → IeeeAddr) (run : EndDeviceBindRun) : Prop where
  received : run.received.Perm (run.fates.flatMap BindFate.requests ++ run.waiting)
  responses : run.responses = run.fates.flatMap BindFate.responses
  procedures : run.fates.filterMap BindFate.begun =
    run.ended.map (fun outcome => (outcome.first, outcome.second)) ++ run.inProgress
  toggled : ∀ outcome ∈ run.ended, outcome.Toggled network

structure Toggles (network : ℕ → IeeeAddr) (run : EndDeviceBindRun) : Prop
    extends History network run where
  returns : run.Returns

def answeredWith (run : EndDeviceBindRun) (ind : ZdpInd) : List ZdpInd :=
  if ind.frame.validEndp then
    match run.param1 with
    | none => []
    | some first => if run.param2.isSome then [ind] else [ind, first]
  else [ind]

def Knows (network : ℕ → IeeeAddr) (run : EndDeviceBindRun) : Prop :=
  ∀ dev, ∃ addr, zbAddressIeeeByShort (run.device 0).addr
    (run.ctx.bindDeviceInfo dev).bindingTarget =
      some (addr, some (network (run.ctx.bindDeviceInfo dev).bindingTarget))

/-- There is room for what is scheduled and at the devices, the first request to
unbind is not misled, and nothing is lost.  The tables of the devices are
changed by others between procedures only. -/
def Smooth (network : ℕ → IeeeAddr) (run : EndDeviceBindRun) : EndDeviceBindEvent → Prop
  | .request ind room alarmRoom =>
      (∀ other ∈ run.answeredWith ind, room other.param = true) ∧
        (ind.frame.validEndp = true → run.param1 = none → alarmRoom = true) ∧
        (ind.frame.validEndp = true → run.param2 = none →
          ∀ first ∈ run.param1, first.frame.profileId = ind.frame.profileId →
            ∀ dev, (sharedClusters (of first ind) dev).length ≤
              zdoMaxClusterList)
  | .timer room => ∀ ind ∈ run.bindTimer, room ind.param = true
  | .outBuf _ => run.Knows network
  | .arrival =>
      match run.job with
      | some (.request dst req bind cb) =>
          (run.device dst).Can req bind ∧ (cb = .check → (run.device dst).Tells req)
      | _ => True
  | .callback _ =>
      (run.ctx.bindDeviceInfo run.ctx.currentDevice).clusterNum ≠ 0 → run.Knows network
  | .lost => False
  | .elsewhere device => run.param2 = none ∧ ∀ address, (device address).binding.WellFormed

structure Saved (sides : BindDev → ZdpFrame) (ctx : EndDeviceBindCtx) : Prop where
  target : ∀ dev, (ctx.bindDeviceInfo dev).bindingTarget = (sides dev).bindingTarget
  endp : ∀ dev, (ctx.bindDeviceInfo dev).srcEndp = (sides dev).srcEndp
  num : ∀ dev, (ctx.bindDeviceInfo dev).clusterNum ≤ (sharedClusters sides dev).length
  list : ∀ dev k cluster, (sharedClusters sides dev)[k]? = some cluster →
    (ctx.bindDeviceInfo dev).clusterList k = cluster

def Full (sides : BindDev → ZdpFrame) (run : EndDeviceBindRun) : Prop :=
  ∀ dev, (run.ctx.bindDeviceInfo dev).clusterNum = (sharedClusters sides dev).length

variable (network : ℕ → IeeeAddr) (sides : BindDev → ZdpFrame)

def Decided (run : EndDeviceBindRun) (bind : Bool) : Prop :=
  ∃ checked, (bindPairs sides).head? = some checked ∧
    (bind = true ↔ ¬PairBound network sides run.before checked)

def Done (run : EndDeviceBindRun) (bind : Bool) (flying : Option (BindDev × ℕ)) : Prop :=
  ∀ dev k cluster, (sharedClusters sides dev)[k]? = some cluster →
    (run.ctx.bindDeviceInfo dev).clusterNum ≤ k → flying ≠ some (dev, k) →
      (run.device (sides dev).bindingTarget).Settled
        (pairReq network sides (dev, cluster)) bind

def Unchanged (run : EndDeviceBindRun) : Prop :=
  ∀ pair, PairBound network sides run.device pair ↔ PairBound network sides run.before pair

def callbackOf : Bool → BindCallback
  | true => .endDeviceBind
  | false => .endDeviceUnbind

inductive Stage (run : EndDeviceBindRun) : BindJob → Prop
  | outBuf (hfull : run.Full sides) (hsame : run.Unchanged network sides) :
      Stage run .outBuf
  | check {cluster : ℕ} (hfull : run.Full sides) (hsame : run.Unchanged network sides)
      (hchecked : (bindPairs sides).head? = some (run.ctx.currentDevice, cluster)) :
      Stage run (.request (sides run.ctx.currentDevice).bindingTarget
        (pairReq network sides (run.ctx.currentDevice, cluster)) false .check)
  | checked {status : BindStatus} (hfull : run.Full sides)
      (hdecided : run.Decided network sides (status = .invalidBinding)) :
      Stage run (.response status .check)
  | request {bind : Bool} {cluster : ℕ} (hdecided : run.Decided network sides bind)
      (hcluster : (sharedClusters sides run.ctx.currentDevice)[
        (run.ctx.bindDeviceInfo run.ctx.currentDevice).clusterNum]? = some cluster)
      (hdone : run.Done network sides bind (some (run.ctx.currentDevice,
        (run.ctx.bindDeviceInfo run.ctx.currentDevice).clusterNum))) :
      Stage run (.request (sides run.ctx.currentDevice).bindingTarget
        (pairReq network sides (run.ctx.currentDevice, cluster)) bind
        (callbackOf bind))
  | response {bind : Bool} {status : BindStatus}
      (hdecided : run.Decided network sides bind)
      (hdone : run.Done network sides bind none) :
      Stage run (.response status (callbackOf bind))
  | scheduled {bind : Bool} (hdecided : run.Decided network sides bind)
      (hdone : run.Done network sides bind none) :
      Stage run (.scheduled (callbackOf bind))

def left (run : EndDeviceBindRun) : ℕ :=
  let turn := if run.ctx.currentDevice = .dev1 then 1 else 0
  2 * ((run.ctx.bindDeviceInfo .dev1).clusterNum +
    (run.ctx.bindDeviceInfo .dev2).clusterNum) +
    match run.job with
    | none => 0
    | some .outBuf => 4
    | some (.request ..) => 2 + turn
    | some _ => 1 + turn

structure Underway (run : EndDeviceBindRun) : Prop where
  saved : Saved sides run.ctx
  inTurn : run.job ≠ some .outBuf → run.ctx.currentDevice = .dev2 →
    (run.ctx.bindDeviceInfo .dev1).clusterNum = 0
  pairs : bindPairs sides ≠ []
  bounded : run.steps + run.left ≤ 2 * (bindPairs sides).length + 4
  stage : ∃ job, run.job = some job ∧ run.Stage network sides job

def Context (run : EndDeviceBindRun) : Prop :=
  match run.param1, run.param2 with
  | none, none => run.job = none ∧ run.bindTimer = none
  | some first, none => run.job = none ∧ run.bindTimer = some first
  | some first, some second => run.bindTimer = none ∧
      run.Underway network (of first second)
  | none, some _ => False

structure Sound (run : EndDeviceBindRun) : Prop extends History network run where
  wellFormed : ∀ address, (run.device address).binding.WellFormed
  context : run.Context network

end EndDeviceBindRun

section LookUps

variable {g g' : AddrGlobals} {shortAddr : ℕ} {ieee : IeeeAddr}

theorem zbAddressIeeeByShort_eq (g : AddrGlobals) (shortAddr : ℕ) :
    zbAddressIeeeByShort g shortAddr = match shortSearch g shortAddr with
      | some ref => some (g.markClock ref,
          some (zbIeeeAddrDecompress g (g.addrMap ref).ieeeAddr))
      | none => some (g, none) := by
  rw [zbAddressIeeeByShort, zbAddressByShort]
  cases shortSearch g shortAddr with
  | none => rfl
  | some ref =>
    have hentry := ((sameTable_markClock g ref).entry ref).ieeeAddr
    simp only [lockResult, bind_eq_bind, bind_some, hentry]
    rfl

theorem sameTable_zbAddressIeeeByShort {ret : Option IeeeAddr}
    (hcall : zbAddressIeeeByShort g shortAddr = some (g', ret)) :
    SameTable g g' := by
  rw [zbAddressIeeeByShort_eq] at hcall
  split at hcall
  · obtain ⟨rfl, -⟩ := some_pair_inj hcall
    exact sameTable_markClock g _
  · obtain ⟨rfl, -⟩ := some_pair_inj hcall
    exact .refl g

theorem SameTable.zbAddressIeeeByShort {h : AddrGlobals} (hsame : SameTable g h)
    (hcall : zbAddressIeeeByShort g shortAddr = some (g', some ieee)) :
    ∃ h', Zboss.zbAddressIeeeByShort h shortAddr = some (h', some ieee) := by
  rw [zbAddressIeeeByShort_eq] at hcall
  rw [zbAddressIeeeByShort_eq, hsame.shortSearch]
  split at hcall
  · rename_i ref _
    obtain ⟨-, hieee⟩ := some_pair_inj hcall
    refine ⟨h.markClock ref, ?_⟩
    rw [← hieee]
    simp only [zbIeeeAddrDecompress, hsame.devManufacturer, (hsame.entry ref).ieeeAddr]
  · cases hcall

end LookUps

namespace EndDeviceBindRun

variable {network : ℕ → IeeeAddr} {sides : BindDev → ZdpFrame}
  {run next : EndDeviceBindRun} {bind : Bool} {unset : IeeeAddr}
  {first second ind : ZdpInd} {room : ℕ → Bool}

section Requests

theorem sendBindUnbindReq_eq (hsaved : Saved sides run.ctx)
    (hknows : run.Knows network) (dev : BindDev) (cluster : ℕ)
    (cb : BindCallback) (bind : Bool) (unset : IeeeAddr) :
    ∃ addr, SameTable (run.device 0).addr addr ∧
      run.sendBindUnbindReq dev cluster cb bind unset = some { run with
        device := update run.device 0 { run.device 0 with addr }
        job := some (.request (sides dev).bindingTarget
          (pairReq network sides (dev, cluster)) bind cb) } := by
  obtain ⟨g, hsrc⟩ := hknows dev
  obtain ⟨g', hdst⟩ := hknows dev.peer
  have hsame := sameTable_zbAddressIeeeByShort hsrc
  obtain ⟨addr, hdst'⟩ := hsame.zbAddressIeeeByShort hdst
  refine ⟨addr, hsame.trans (sameTable_zbAddressIeeeByShort hdst'), ?_⟩
  rw [hsaved.target] at hsrc hdst'
  rw [sendBindUnbindReq]
  simp only [hsaved.target, hsaved.endp, hsrc, hdst', bind_eq_bind, bind_some, getD_some]
  rfl

theorem lookedUp (property : BindingState → Prop) {device : ℕ → BindingState}
    {addr : AddrGlobals} (hsame : SameTable (device 0).addr addr)
    (hkeeps : ∀ state next : BindingState, SameTable state.addr next.addr →
      next.binding = state.binding → property state → property next)
    {address : ℕ} (hholds : property (device address)) :
    property (update device 0 { device 0 with addr } address) := by
  by_cases haddress : address = 0
  · subst haddress
    rw [update_self]
    exact hkeeps _ _ hsame rfl hholds
  · rw [update_of_ne haddress]
    exact hholds

theorem pairBound_lookedUp {device : ℕ → BindingState} {addr : AddrGlobals}
    (hsame : SameTable (device 0).addr addr) (pair : BindDev × ℕ) :
    PairBound network sides (update device 0 { device 0 with addr }) pair ↔
      PairBound network sides device pair := by
  rw [PairBound, PairBound]
  by_cases haddress : (sides pair.1).bindingTarget = 0
  · rw [haddress, update_self]
    exact bound_of_sameTable hsame rfl
  · rw [update_of_ne haddress]

end Requests

section Histories

theorem History.congr (hhistory : run.History network)
    (hreceived : next.received = run.received)
    (hfates : next.fates = run.fates)
    (hresponses : next.responses = run.responses)
    (hended : next.ended = run.ended) (h1 : next.param1 = run.param1)
    (h2 : next.param2 = run.param2) : next.History network where
  received := by
    rw [hreceived, hfates, waiting, h1, h2]
    exact hhistory.received
  responses := by
    rw [hresponses, hfates]
    exact hhistory.responses
  procedures := by
    rw [hfates, hended, inProgress, h1, h2]
    exact hhistory.procedures
  toggled := hended ▸ hhistory.toggled

theorem bindDeviceInfo_setInfo (ctx : EndDeviceBindCtx) (dev : BindDev)
    (info : BindDeviceInfo) (other : BindDev) :
    (ctx.setInfo dev info).bindDeviceInfo other =
      if other = dev then info else ctx.bindDeviceInfo other :=
  update_apply ..

theorem setClusterNum_info (ctx : EndDeviceBindCtx) (dev : BindDev)
    (clusterNum : ℕ) (other : BindDev) :
    (ctx.setInfo dev { ctx.bindDeviceInfo dev with clusterNum }).bindDeviceInfo
      other = { ctx.bindDeviceInfo other with
        clusterNum := if other = dev then clusterNum
          else (ctx.bindDeviceInfo other).clusterNum } := by
  rw [bindDeviceInfo_setInfo]
  split
  case isTrue heq => rw [heq]
  case isFalse => rfl

theorem mem_bindPairs {pair : BindDev × ℕ} :
    pair ∈ bindPairs sides ↔ pair.2 ∈ sharedClusters sides pair.1 := by
  obtain ⟨dev, cluster⟩ := pair
  rw [bindPairs, List.mem_append, List.mem_map, List.mem_map]
  cases dev <;> simp

theorem History.finish (hhistory : run.History network)
    (h1 : run.param1 = some first) (h2 : run.param2 = some second)
    (hdecided : run.Decided network (of first second) bind)
    (hdone : run.Done network (of first second) bind none)
    (hempty : ∀ dev, (run.ctx.bindDeviceInfo dev).clusterNum = 0) :
    run.finish.History network := by
  have hsettled : ∀ pair ∈ bindPairs (of first second),
      (run.device (of first second pair.1).bindingTarget).Settled
        (pairReq network (of first second) pair) bind := by
    rintro ⟨dev, cluster⟩ hmem
    obtain ⟨k, hk⟩ := List.getElem?_of_mem (mem_bindPairs.mp hmem)
    exact hdone dev k cluster hk (hempty dev ▸ Nat.zero_le k) nofun
  obtain ⟨checked, hchecked, hbind⟩ := hdecided
  have houtcome : BindOutcome.Toggled network ⟨first, second, run.before, run.device⟩ := by
    refine ⟨checked, hchecked, fun hbound => ?_, fun hbound => ?_⟩
    · have hfalse : bind = false :=
        (Bool.not_eq_true _).mp fun htrue => hbind.mp htrue hbound
      subst hfalse
      exact fun pair hmem => (hsettled pair hmem).not_bound
    · obtain rfl := hbind.mpr hbound
      exact hsettled
  have hended : run.finish.ended =
      run.ended ++ [⟨first, second, run.before, run.device⟩] := by
    simp only [EndDeviceBindRun.finish, h1, h2]
    rfl
  constructor
  case received =>
    have hwaiting := hhistory.received
    rw [waiting, h2] at hwaiting
    exact hwaiting
  case responses => exact hhistory.responses
  case procedures =>
    have hprocedures := hhistory.procedures
    rw [inProgress, h1, h2] at hprocedures
    rw [hended, List.map_append]
    exact hprocedures.trans (List.append_nil _).symm
  case toggled =>
    intro outcome hmem
    rw [hended] at hmem
    rcases List.mem_append.mp hmem with hold | hnew
    · exact hhistory.toggled outcome hold
    · obtain rfl := List.mem_singleton.mp hnew
      exact houtcome

end Histories

/-! ## Steps of the procedure -/

section Chain

theorem context_of_idle (h1 : next.param1 = none) (h2 : next.param2 = none)
    (hidle : next.job = none ∧ next.bindTimer = none) :
    next.Context network := by
  rw [Context, h1, h2]
  exact hidle

theorem context_of_waiting (h1 : next.param1 = some first) (h2 : next.param2 = none)
    (hwaits : next.job = none ∧ next.bindTimer = some first) :
    next.Context network := by
  rw [Context, h1, h2]
  exact hwaits

theorem context_of_underway (h1 : next.param1 = some first)
    (h2 : next.param2 = some second) (htimer : next.bindTimer = none)
    (hunderway : next.Underway network (of first second)) :
    next.Context network := by
  rw [Context, h1, h2]
  exact ⟨htimer, hunderway⟩

theorem Saved.setClusterNum {ctx : EndDeviceBindCtx} (hsaved : Saved sides ctx)
    {dev : BindDev} {clusterNum : ℕ}
    (hle : clusterNum ≤ (ctx.bindDeviceInfo dev).clusterNum) :
    Saved sides (ctx.setInfo dev { ctx.bindDeviceInfo dev with clusterNum }) := by
  constructor
  case target =>
    intro other
    rw [setClusterNum_info]
    exact hsaved.target other
  case endp =>
    intro other
    rw [setClusterNum_info]
    exact hsaved.endp other
  case num =>
    intro other
    rw [setClusterNum_info]
    dsimp only
    split
    case isTrue heq =>
      rw [heq]
      exact hle.trans (hsaved.num dev)
    case isFalse => exact hsaved.num other
  case list =>
    intro other
    rw [setClusterNum_info]
    exact hsaved.list other

theorem chained (hhistory : run.History network)
    (hwf : ∀ address, (run.device address).binding.WellFormed)
    (h1 : run.param1 = some first) (h2 : run.param2 = some second)
    (htimer : run.bindTimer = none)
    (hsaved : Saved (of first second) run.ctx)
    (hinTurn : run.ctx.currentDevice = .dev2 →
      (run.ctx.bindDeviceInfo .dev1).clusterNum = 0)
    (hpairs : bindPairs (of first second) ≠ [])
    (hbounded : run.steps + 2 * ((run.ctx.bindDeviceInfo .dev1).clusterNum +
      (run.ctx.bindDeviceInfo .dev2).clusterNum) +
        (if run.ctx.currentDevice = .dev1 then 1 else 0) ≤
          2 * (bindPairs (of first second)).length + 4)
    (hdecided : run.Decided network (of first second) bind)
    (hdone : run.Done network (of first second) bind none)
    (hknows : (run.ctx.bindDeviceInfo run.ctx.currentDevice).clusterNum ≠ 0 →
      run.Knows network)
    (hstep : run.sendBindUnbindWithCheck bind (callbackOf bind) unset =
      some next) : next.Sound network := by
  rw [sendBindUnbindWithCheck] at hstep
  dsimp only at hstep
  split at hstep
  case isTrue hzero =>
    cases hcurrent : run.ctx.currentDevice with
    | dev1 =>
      rw [hcurrent] at hstep hzero hbounded
      obtain rfl := some.inj hstep
      refine ⟨hhistory.congr rfl rfl rfl rfl rfl rfl, hwf,
        context_of_underway h1 h2 htimer ?_⟩
      refine ⟨⟨hsaved.target, hsaved.endp, hsaved.num, hsaved.list⟩,
        fun _ _ => hzero, hpairs, ?_, _, rfl, .scheduled hdecided hdone⟩
      rw [if_pos rfl] at hbounded
      simpa [left, Nat.add_assoc] using hbounded
    | dev2 =>
      rw [hcurrent] at hstep hzero
      obtain rfl := some.inj hstep
      refine ⟨hhistory.finish h1 h2 hdecided hdone ?_, hwf, ⟨rfl, htimer⟩⟩
      intro dev
      cases dev with
      | dev1 => exact hinTurn hcurrent
      | dev2 => exact hzero
  case isFalse hnonzero =>
    have hlast : (run.ctx.bindDeviceInfo run.ctx.currentDevice).clusterNum - 1 <
        (sharedClusters (of first second) run.ctx.currentDevice).length := by
      have hnum := hsaved.num run.ctx.currentDevice
      omega
    obtain ⟨cluster, hcluster⟩ : ∃ cluster,
        (sharedClusters (of first second) run.ctx.currentDevice)[
          (run.ctx.bindDeviceInfo run.ctx.currentDevice).clusterNum - 1]? =
            some cluster :=
      ⟨_, List.getElem?_eq_getElem hlast⟩
    obtain ⟨addr, hsame, hsend⟩ := sendBindUnbindReq_eq hsaved
      (hknows hnonzero) run.ctx.currentDevice cluster (callbackOf bind) bind
      unset
    rw [hsaved.list _ _ _ hcluster, hsend] at hstep
    obtain rfl := some.inj hstep
    have hinfo := setClusterNum_info run.ctx run.ctx.currentDevice
      ((run.ctx.bindDeviceInfo run.ctx.currentDevice).clusterNum - 1)
    have hparam : ∀ dev, ((run.ctx.setInfo run.ctx.currentDevice
        { run.ctx.bindDeviceInfo run.ctx.currentDevice with
          clusterNum := (run.ctx.bindDeviceInfo
            run.ctx.currentDevice).clusterNum - 1 }).bindDeviceInfo
              dev).endDeviceBindParam =
        (run.ctx.bindDeviceInfo dev).endDeviceBindParam := by
      intro dev
      rw [hinfo]
    refine ⟨hhistory.congr rfl rfl rfl rfl (hparam .dev1) (hparam .dev2),
      ?wellFormed, context_of_underway ((hparam .dev1).trans h1)
        ((hparam .dev2).trans h2) htimer ?underway⟩
    case wellFormed =>
      intro address
      refine lookedUp (fun state => state.binding.WellFormed) hsame ?_ (hwf address)
      intro state other _ hbinding hstate
      rw [hbinding]
      exact hstate
    case underway =>
      refine ⟨hsaved.setClusterNum (Nat.sub_le ..), ?inTurn, hpairs, ?bounded,
        _, rfl, .request ?decided ?cluster ?done⟩
      case inTurn =>
        intro _ hcurrent
        rw [hinfo]
        dsimp only
        split
        case isTrue heq => rw [← heq, hinTurn hcurrent]
        case isFalse => exact hinTurn hcurrent
      case bounded =>
        rw [left, hinfo, hinfo]
        dsimp only
        cases hcurrent : run.ctx.currentDevice <;> rw [hcurrent] at hbounded hnonzero <;>
          simp [EndDeviceBindCtx.setInfo, hcurrent] at hbounded ⊢ <;>
          omega
      case decided => exact hdecided
      case cluster =>
        simp only [EndDeviceBindCtx.setInfo, update_self]
        exact hcluster
      case done =>
        intro dev k other hother hle hflying
        rw [hinfo] at hle
        dsimp only at hle
        simp only [EndDeviceBindCtx.setInfo, update_self] at hflying
        have htaken : (run.ctx.bindDeviceInfo dev).clusterNum ≤ k := by
          split at hle
          case isTrue heq =>
            have hne : k ≠ (run.ctx.bindDeviceInfo
                run.ctx.currentDevice).clusterNum - 1 := by
              rintro rfl
              exact hflying (by rw [heq])
            rw [heq]
            omega
          case isFalse => exact hle
        refine lookedUp (fun state => state.Settled _ bind) hsame ?_
          (hdone dev k other hother htaken nofun)
        exact fun _ _ hsame hbinding => settled_of_sameTable hsame hbinding

theorem Sound.inProcedure (hsound : run.Sound network) {job : BindJob}
    (hjob : run.job = some job) :
    ∃ first second, run.param1 = some first ∧ run.param2 = some second ∧
      run.bindTimer = none ∧
      run.Underway network (of first second) := by
  have hcontext := hsound.context
  rw [Context] at hcontext
  split at hcontext
  case h_1 =>
    rw [hjob] at hcontext
    cases hcontext.1
  case h_2 =>
    rw [hjob] at hcontext
    cases hcontext.1
  case h_3 first second h1 h2 => exact ⟨first, second, h1, h2, hcontext⟩
  case h_4 => exact hcontext.elim

theorem bindUnbindCb_check (run : EndDeviceBindRun) (status : BindStatus)
    (unset : IeeeAddr) :
    run.bindUnbindCb status unset .check =
      run.sendBindUnbindWithCheck (decide (status = .invalidBinding))
        (callbackOf (decide (status = .invalidBinding))) unset := by
  rw [bindUnbindCb]
  split
  case isTrue hinvalid => rw [decide_eq_true hinvalid, callbackOf]
  case isFalse hvalid => rw [decide_eq_false hvalid, callbackOf]

theorem bindUnbindCb_callbackOf (run : EndDeviceBindRun) (status : BindStatus)
    (unset : IeeeAddr) (bind : Bool) :
    run.bindUnbindCb status unset (callbackOf bind) =
      run.sendBindUnbindWithCheck bind (callbackOf bind) unset := by
  cases bind <;> rfl

theorem Sound.callback (hsound : run.Sound network)
    (hknows : (run.ctx.bindDeviceInfo run.ctx.currentDevice).clusterNum ≠ 0 →
      run.Knows network)
    (hstep : run.step (.callback unset) = some next) :
    next.Sound network := by
  cases hjob : run.job with
  | none =>
    rw [step, hjob] at hstep
    cases hstep
  | some job =>
    obtain ⟨first, second, h1, h2, htimer, hunderway⟩ := hsound.inProcedure hjob
    obtain ⟨job', hjob', hstage⟩ := hunderway.stage
    obtain rfl := some.inj (hjob.symm.trans hjob')
    rw [step, hjob] at hstep
    -- what the callback does is what the chain does with `bind`
    have hnext : ∀ bind, job ≠ .outBuf → run.left =
          2 * ((run.ctx.bindDeviceInfo .dev1).clusterNum +
            (run.ctx.bindDeviceInfo .dev2).clusterNum) +
            (1 + if run.ctx.currentDevice = .dev1 then 1 else 0) →
        run.Decided network (of first second) bind →
        run.Done network (of first second) bind none →
        run.count.sendBindUnbindWithCheck bind (callbackOf bind) unset =
          some next → next.Sound network := by
      intro bind hjob' hleft hdecided hdone hsend
      have hbounded := hunderway.bounded
      have hinTurn := hunderway.inTurn (by
        rw [hjob]
        exact fun h => hjob' (some.inj h))
      have hhistory : run.count.History network :=
        hsound.toHistory.congr rfl rfl rfl rfl rfl rfl
      refine chained hhistory hsound.wellFormed h1 h2 htimer hunderway.saved hinTurn
        hunderway.pairs ?_ hdecided hdone hknows hsend
      rw [hleft] at hbounded
      change run.steps + 1 + 2 * ((run.ctx.bindDeviceInfo .dev1).clusterNum +
        (run.ctx.bindDeviceInfo .dev2).clusterNum) +
          (if run.ctx.currentDevice = .dev1 then 1 else 0) ≤ _
      omega
    cases hstage with
    | outBuf hfull hsame => cases hstep
    | check hfull hsame hchecked => cases hstep
    | checked hfull hdecided =>
      dsimp only at hstep
      rw [bindUnbindCb_check] at hstep
      refine hnext _ nofun (by rw [left, hjob]) hdecided ?_ hstep
      intro dev k cluster hk hle
      rw [hfull dev] at hle
      exact absurd (List.getElem?_eq_some_iff.mp hk).1 (Nat.not_lt.mpr hle)
    | request hdecided hcluster hdone => cases hstep
    | response hdecided hdone =>
      dsimp only at hstep
      rw [bindUnbindCb_callbackOf] at hstep
      exact hnext _ nofun (by rw [left, hjob]) hdecided hdone hstep
    | scheduled hdecided hdone =>
      dsimp only at hstep
      rw [bindUnbindCb_callbackOf] at hstep
      exact hnext _ nofun (by rw [left, hjob]) hdecided hdone hstep

theorem head?_bindPairs (hpairs : bindPairs sides ≠ []) : let dev : BindDev :=
      if (sharedClusters sides .dev1).length ≠ 0 then .dev1 else .dev2
    ∃ cluster, (sharedClusters sides dev)[0]? = some cluster ∧
      (bindPairs sides).head? = some (dev, cluster) := by
  dsimp only
  cases hshared : sharedClusters sides .dev1 with
  | nil =>
    rw [if_neg (by simp)]
    cases hother : sharedClusters sides .dev2 with
    | nil =>
      rw [bindPairs, hshared, hother] at hpairs
      exact absurd rfl hpairs
    | cons cluster rest =>
      refine ⟨cluster, rfl, ?_⟩
      rw [bindPairs, hshared, hother]
      rfl
  | cons cluster rest =>
    rw [if_pos (by simp)]
    refine ⟨cluster, by rw [hshared]; rfl, ?_⟩
    rw [bindPairs, hshared]
    rfl

theorem Sound.outBuf (hsound : run.Sound network) (hknows : run.Knows network)
    (hstep : run.step (.outBuf unset) = some next) : next.Sound network := by
  rw [step] at hstep
  split at hstep
  case h_2 => cases hstep
  case h_1 hjob =>
    obtain ⟨first, second, h1, h2, htimer, hunderway⟩ := hsound.inProcedure hjob
    obtain ⟨job', hjob', hstage⟩ := hunderway.stage
    obtain rfl := some.inj (hjob.symm.trans hjob')
    obtain ⟨hfull, hsame⟩ : run.Full (of first second) ∧
        run.Unchanged network (of first second) := by
      cases hstage with
      | outBuf hfull hsame => exact ⟨hfull, hsame⟩
    obtain ⟨cluster, hcluster, hchecked⟩ := head?_bindPairs hunderway.pairs
    have hnum : (run.count.ctx.bindDeviceInfo .dev1).clusterNum = _ := hfull .dev1
    rw [← hnum] at hcluster hchecked
    have hsaved : Saved (of first second) run.count.ctx := hunderway.saved
    rw [zbZdoSendCheckBindUnbind] at hstep
    dsimp only at hstep
    generalize hdev : (if (run.count.ctx.bindDeviceInfo .dev1).clusterNum ≠ 0
      then dev1 else .dev2) = dev at hstep hcluster hchecked
    rw [hsaved.list dev 0 cluster hcluster] at hstep
    obtain ⟨addr, hlook, hsend⟩ := @sendBindUnbindReq_eq network (of first second)
      { run.count with ctx := { run.count.ctx with currentDevice := dev } }
      ⟨hsaved.target, hsaved.endp, hsaved.num, hsaved.list⟩ hknows dev cluster
      .check false unset
    obtain rfl := some.inj (hsend.symm.trans hstep)
    refine ⟨hsound.toHistory.congr rfl rfl rfl rfl rfl rfl, ?wellFormed,
      context_of_underway h1 h2 htimer ?underway⟩
    case wellFormed =>
      intro address
      refine lookedUp (fun state => state.binding.WellFormed) hlook ?_
        (hsound.wellFormed address)
      intro state other _ hbinding hstate
      rw [hbinding]
      exact hstate
    case underway =>
      refine ⟨⟨hsaved.target, hsaved.endp, hsaved.num, hsaved.list⟩, ?inTurn,
        hunderway.pairs, ?bounded, _, rfl, .check hfull ?same hchecked⟩
      case inTurn =>
        rintro - rfl
        by_contra hnonzero
        rw [if_pos hnonzero] at hdev
        cases hdev
      case bounded =>
        have hbounded := hunderway.bounded
        rw [left, hjob] at hbounded
        simp only [left, count]
        dsimp only at hbounded
        split <;> omega
      case same => exact fun pair => (pairBound_lookedUp hlook pair).trans (hsame pair)

theorem Sound.answered (hsound : run.Sound network)
    {dst : ℕ} {req : ApsmeBindingReq} {cb : BindCallback}
    (hjob : run.job = some (.request dst req bind cb))
    (h1 : run.param1 = some first) (h2 : run.param2 = some second)
    (htimer : run.bindTimer = none)
    (hunderway : run.Underway network (of first second))
    {addr : AddrGlobals} {binding : ApsBindingTable} {status : BindStatus}
    (hwf : binding.WellFormed)
    (hnext : next = { run.count with
      device := update run.device dst ⟨addr, binding⟩
      job := some (.response status cb) })
    (hstage : next.Stage network (of first second)
      (.response status cb)) : next.Sound network := by
  subst hnext
  refine ⟨hsound.toHistory.congr rfl rfl rfl rfl rfl rfl, ?wellFormed,
    context_of_underway h1 h2 htimer ?underway⟩
  case wellFormed =>
    intro address
    by_cases haddress : address = dst
    · subst haddress
      simp only [update_self]
      exact hwf
    · simp only [update_of_ne haddress]
      exact hsound.wellFormed address
  case underway =>
    refine ⟨hunderway.saved, fun _ => hunderway.inTurn (by rw [hjob]; nofun),
      hunderway.pairs, ?_, _, rfl, hstage⟩
    have hbounded := hunderway.bounded
    rw [left, hjob] at hbounded
    change run.steps + 1 + (2 * ((run.ctx.bindDeviceInfo .dev1).clusterNum +
      (run.ctx.bindDeviceInfo .dev2).clusterNum) +
        (1 + if run.ctx.currentDevice = .dev1 then 1 else 0)) ≤ _
    dsimp only at hbounded
    omega

theorem zbZdoBindUnbindRes_eq {dst : ℕ} {req : ApsmeBindingReq}
    {addr : AddrGlobals} {binding : ApsBindingTable} {status : BindStatus}
    (hexec : (if bind then BindingCall.bind req else .unbind req).exec
      (run.device dst) = some (addr, binding, status)) (cb : BindCallback) :
    run.count.zbZdoBindUnbindRes dst req bind cb = some { run.count with
      device := update run.device dst ⟨addr, binding⟩
      job := some (.response status cb) } := by
  change Option.map _ (BindingCall.exec (run.device dst) _) = _
  rw [hexec]
  rfl

theorem Sound.arrival (hsound : run.Sound network) (hsmooth : run.Smooth network .arrival)
    (hstep : run.step .arrival = some next) : next.Sound network := by
  rw [step] at hstep
  split at hstep
  case h_2 => cases hstep
  case h_1 dst req bind cb hjob =>
    obtain ⟨first, second, h1, h2, htimer, hunderway⟩ := hsound.inProcedure hjob
    obtain ⟨job', hjob', hstage⟩ := hunderway.stage
    obtain rfl := some.inj (hjob.symm.trans hjob')
    rw [Smooth, hjob] at hsmooth
    obtain ⟨hcan, htells⟩ := hsmooth
    have hwf := hsound.wellFormed dst
    generalize hrequest : BindJob.request dst req bind cb = job at hstage
    cases hstage with
    | outBuf hfull hsame => cases hrequest
    | checked hfull hdecided => cases hrequest
    | response hdecided hdone => cases hrequest
    | scheduled hdecided hdone => cases hrequest
    | @check cluster hfull hsame hchecked =>
      cases hrequest
      obtain ⟨addr, binding, status, hexec, hwf', -, -, hstatus⟩ :=
        exec_unbind hwf rfl hcan.1 hcan.2
      rw [zbZdoBindUnbindRes_eq hexec] at hstep
      obtain rfl := some.inj hstep
      refine hsound.answered hjob h1 h2 htimer hunderway hwf' rfl
        (.checked hfull ⟨_, hchecked, ?_⟩)
      rw [decide_eq_true_iff, hstatus (htells rfl)]
      exact not_congr (hsame (run.ctx.currentDevice, cluster))
    | @request _ cluster hdecided hcluster hdone =>
      cases hrequest
      obtain ⟨addr, binding, status, hexec, hwf', hself, hothers⟩ :=
        exec_settled hwf rfl hcan
      rw [zbZdoBindUnbindRes_eq hexec] at hstep
      obtain rfl := some.inj hstep
      refine hsound.answered hjob h1 h2 htimer hunderway hwf' rfl (.response hdecided ?_)
      intro dev k other hother hle _
      by_cases hflying : (run.ctx.currentDevice, (run.ctx.bindDeviceInfo
          run.ctx.currentDevice).clusterNum) = (dev, k)
      case pos =>
        obtain ⟨rfl, rfl⟩ := Prod.mk.inj hflying
        obtain rfl := some.inj (hcluster.symm.trans hother)
        simp only [update_self]
        exact hself
      case neg =>
        have hsettled := hdone dev k other hother hle fun h => hflying (some.inj h)
        by_cases htarget : (of first second dev).bindingTarget =
            (of first second run.ctx.currentDevice).bindingTarget
        · rw [htarget] at hsettled
          simp only [htarget, update_self]
          exact hothers _ hsettled
        · simp only [update_of_ne htarget]
          exact hsettled

end Chain

/-! ## Requests to the coordinator -/

section Coordinator

theorem respond_eq {inds : List ZdpInd} {status : UInt8}
    (hroom : ∀ ind ∈ inds, room ind.param = true) (run : EndDeviceBindRun) :
    run.respond inds status room = { run with
      responses := run.responses ++ inds.map fun ind =>
        ⟨ZdpCluster.resp ZdpCluster.endDeviceBindReq, status, ind.tsn, ind.srcAddr⟩ } := by
  rw [respond, List.filter_eq_self.mpr hroom]

theorem History.respond (hhistory : run.History network) (fate : BindFate)
    {received : List ZdpInd}
    (hreceived : next.received = run.received ++ received)
    (hfates : next.fates = run.fates ++ [fate])
    (hresponses : next.responses = run.responses ++ fate.responses)
    (hended : next.ended = run.ended)
    (hprogress : next.inProgress = run.inProgress ++ fate.begun.toList)
    (hwaiting : (run.waiting ++ received).Perm
      (fate.requests ++ next.waiting)) : next.History network where
  received := by
    rw [hreceived, hfates, List.flatMap_append, List.flatMap_singleton]
    refine (hhistory.received.append_right received).trans ?_
    rw [List.append_assoc, List.append_assoc]
    exact hwaiting.append_left _
  responses := by
    rw [hresponses, hfates, List.flatMap_append, List.flatMap_singleton,
      hhistory.responses]
  procedures := by
    have hbegun : [fate].filterMap BindFate.begun = fate.begun.toList := by
      cases hfate : fate.begun <;> simp [hfate]
    rw [hfates, List.filterMap_append, hbegun, hended, hprogress,
      hhistory.procedures, List.append_assoc]
  toggled := hended ▸ hhistory.toggled

theorem Sound.timer (hsound : run.Sound network)
    (hroom : ∀ ind ∈ run.bindTimer, room ind.param = true)
    (hstep : run.step (.timer room) = some next) : next.Sound network := by
  obtain ⟨ind, htimer, rfl⟩ := map_eq_some_iff.mp hstep
  have hcontext := hsound.context
  rw [Context, htimer] at hcontext
  split at hcontext
  case h_1 => cases hcontext.2
  case h_3 => cases hcontext.1
  case h_4 => exact hcontext.elim
  case h_2 first h1 h2 =>
    obtain ⟨hjob, hfirst⟩ := hcontext
    obtain rfl := some.inj hfirst
    have hwaiting : run.waiting = [ind] := by
      rw [waiting, h1, h2]
      rfl
    have hprogress : run.inProgress = [] := by
      rw [inProgress, h1, h2]
      rfl
    rw [zbZdoEndDeviceBindTimer, respond_eq (by simpa using hroom ind htimer)]
    refine ⟨hsound.toHistory.respond (.expired ind) (List.append_nil _).symm
      rfl rfl rfl ?_ ?_, hsound.wellFormed, ⟨hjob, rfl⟩⟩
    · rw [hprogress]
      rfl
    · rw [hwaiting]
      exact .refl _

theorem Sound.elsewhere (hsound : run.Sound network)
    {device : ℕ → BindingState} (h2 : run.param2 = none)
    (hwf : ∀ address, (device address).binding.WellFormed) :
    Sound network { run with device } := by
  refine ⟨hsound.toHistory.congr rfl rfl rfl rfl rfl rfl, hwf, ?_⟩
  have hcontext := hsound.context
  rw [Context] at hcontext ⊢
  change match run.param1, run.param2 with
    | none, none => run.job = none ∧ run.bindTimer = none
    | some first, none => run.job = none ∧ run.bindTimer = some first
    | some _, some _ => _
    | none, some _ => False
  rw [h2] at hcontext ⊢
  cases h1 : run.param1 with
  | none =>
    rw [h1] at hcontext
    exact hcontext
  | some first =>
    rw [h1] at hcontext
    exact hcontext

theorem zdoEndDeviceBindHandler_pair (hendp : ind.frame.validEndp = true)
    (hroom : first.frame.profileId = ind.frame.profileId → ∀ dev,
      (sharedClusters (of first ind) dev).length ≤ zdoMaxClusterList) :
    (zdoEndDeviceBindHandler (some first.frame) false ind.frame).1 =
      if first.frame.profileId = ind.frame.profileId ∧
        bindPairs (of first ind) ≠ [] then .success else .noMatch := by
  rw [zdoEndDeviceBindHandler, if_pos hendp]
  dsimp only
  rw [if_neg Bool.false_ne_true]
  by_cases hprofile : first.frame.word 12 = ind.frame.word 12
  case neg => rw [if_neg hprofile, if_neg fun h => hprofile h.1]
  case pos =>
    obtain ⟨hnum1, -⟩ := @checkClusterList_stores .dev1
      (first.frame.outClusterList .dev1) (ind.frame.inClusterList .dev2)
      (fun _ => 0) (hroom hprofile .dev1)
    obtain ⟨hnum2, -⟩ := @checkClusterList_stores .dev2
      (first.frame.inClusterList .dev1) (ind.frame.outClusterList .dev2)
      (fun _ => 0) (hroom hprofile .dev2)
    have hlength : (bindPairs (of first ind)).length =
        (checkClusterList .dev1 (first.frame.outClusterList .dev1)
          (ind.frame.inClusterList .dev2)).1 +
        (checkClusterList .dev2 (first.frame.inClusterList .dev1)
          (ind.frame.outClusterList .dev2)).1 := by
      rw [hnum1, hnum2, bindPairs, List.length_append, List.length_map, List.length_map]
      rfl
    rw [if_pos hprofile]
    by_cases hpairs : bindPairs (of first ind) = []
    case pos =>
      rw [hpairs, List.length_nil] at hlength
      rw [if_pos (by omega), if_neg fun h => h.2 hpairs]
    case neg =>
      have hpos := List.length_pos_iff.mpr hpairs
      rw [if_neg (by omega), if_pos ⟨hprofile, hpairs⟩]

theorem saved_checkClusterLists (ctx : EndDeviceBindCtx)
    (hprofile : first.frame.profileId = ind.frame.profileId)
    (hroom : ∀ dev, (sharedClusters (of first ind) dev).length ≤ zdoMaxClusterList) :
    let checked := (ctx.checkClusterLists first.frame ind.frame).save first ind
    Saved (of first ind) checked ∧ ∀ dev, (checked.bindDeviceInfo dev).clusterNum =
        (sharedClusters (of first ind) dev).length := by
  have hstores1 := @checkClusterList_stores .dev1
    (first.frame.outClusterList .dev1) (ind.frame.inClusterList .dev2)
    (ctx.bindDeviceInfo .dev1).clusterList (hroom .dev1)
  have hstores2 := @checkClusterList_stores .dev2
    (first.frame.inClusterList .dev1) (ind.frame.outClusterList .dev2)
    (ctx.bindDeviceInfo .dev2).clusterList (hroom .dev2)
  dsimp only
  rw [EndDeviceBindCtx.checkClusterLists, if_pos hprofile]
  have hnum : ∀ dev, ((((ctx.checkClusterList .dev1 (first.frame.outClusterList .dev1)
      (ind.frame.inClusterList .dev2)).checkClusterList .dev2
        (first.frame.inClusterList .dev1)
        (ind.frame.outClusterList .dev2)).save first ind).bindDeviceInfo dev).clusterNum =
      (sharedClusters (of first ind) dev).length := by
    intro dev
    cases dev with
    | dev1 => exact hstores1.1
    | dev2 => exact hstores2.1
  refine ⟨⟨?target, ?endp, fun dev => (hnum dev).le, ?list⟩, hnum⟩
  case target =>
    intro dev
    cases dev <;> rfl
  case endp =>
    intro dev
    cases dev <;> rfl
  case list =>
    intro dev k cluster hcluster
    cases dev with
    | dev1 =>
      have hindex := hstores1.2.at_index k cluster hcluster
      rw [Nat.zero_add] at hindex
      exact hindex
    | dev2 =>
      have hindex := hstores2.2.at_index k cluster hcluster
      rw [Nat.zero_add] at hindex
      exact hindex

theorem Context.answered (hcontext : run.Context network)
    (responses : List ZdpResp) (received : List ZdpInd)
    (fates : List BindFate) :
    Context network { run with responses, received, fates } := by
  rw [Context] at hcontext
  split at hcontext
  case h_1 h1 h2 => exact context_of_idle h1 h2 hcontext
  case h_2 first h1 h2 => exact context_of_waiting h1 h2 hcontext
  case h_3 first second h1 h2 =>
    obtain ⟨htimer, hunderway⟩ := hcontext
    refine context_of_underway h1 h2 htimer ⟨hunderway.saved, hunderway.inTurn,
      hunderway.pairs, hunderway.bounded, ?_⟩
    obtain ⟨job, hjob, hstage⟩ := hunderway.stage
    refine ⟨job, hjob, ?_⟩
    cases hstage with
    | outBuf hfull hsame => exact .outBuf hfull hsame
    | check hfull hsame hchecked => exact .check hfull hsame hchecked
    | checked hfull hdecided => exact .checked hfull hdecided
    | request hdecided hcluster hdone => exact .request hdecided hcluster hdone
    | response hdecided hdone => exact .response hdecided hdone
    | scheduled hdecided hdone => exact .scheduled hdecided hdone
  case h_4 => exact hcontext.elim

theorem Sound.turnedAway (hsound : run.Sound network) {status : UInt8}
    (fate : BindFate) (hbegun : fate.begun = none)
    (hrequests : fate.requests = [ind])
    (hroom : room ind.param = true)
    (hresponses : fate.status = status) :
    Sound network ({ run with
      received := run.received ++ [ind]
      fates := run.fates ++ [fate] }.respond [ind] status room) := by
  rw [respond_eq (by simpa using hroom)]
  refine ⟨hsound.toHistory.respond fate rfl rfl ?_ rfl ?_ ?_,
    hsound.wellFormed, hsound.context.answered _ _ _⟩
  · rw [BindFate.responses, hrequests, hresponses]
  · rw [hbegun]
    exact (List.append_nil _).symm
  · rw [hrequests]
    exact List.perm_append_comm

theorem History.pair (hhistory : run.History network)
    (h1 : run.param1 = some first) (h2 : run.param2 = none)
    (hreceived : next.received = run.received ++ [ind])
    (hfates : next.fates = run.fates ++ [.pair first ind])
    (hresponses : next.responses = run.responses ++ (BindFate.pair first ind).responses)
    (hended : next.ended = run.ended)
    (hprogress : next.inProgress = (BindFate.pair first ind).begun.toList)
    (hwaiting : next.waiting = []) : next.History network := by
  refine hhistory.respond (.pair first ind) hreceived hfates hresponses hended ?_ ?_
  · rw [hprogress, inProgress, h1, h2]
    rfl
  · rw [hwaiting, waiting, h1, h2]
    exact List.Perm.swap ..

theorem Sound.answerPair (hsound : run.Sound network)
    (h1 : run.param1 = some first) (h2 : run.param2 = none)
    (hfirst : room first.param = true) (hind : room ind.param = true)
    (hclusters : first.frame.profileId = ind.frame.profileId → ∀ dev,
      (sharedClusters (of first ind) dev).length ≤ zdoMaxClusterList) :
    Sound network ({ run with received := run.received ++ [ind] }.answerPair first ind room
        (decide (first.frame.profileId = ind.frame.profileId ∧
          bindPairs (of first ind) ≠ []))) := by
  have hjob : run.job = none := by
    have hcontext := hsound.context
    rw [Context, h1, h2] at hcontext
    exact hcontext.1
  have hroom : ∀ other ∈ [ind, first], room other.param = true := by simp [hfirst, hind]
  by_cases hmatch : first.frame.profileId = ind.frame.profileId ∧
      bindPairs (of first ind) ≠ []
  case neg =>
    have hstatus : (BindFate.pair first ind).status = ZdpStatus.noMatch := if_neg hmatch
    have hbegun : (BindFate.pair first ind).begun = none := by
      rw [BindFate.begun, hstatus, if_neg (by decide)]
    rw [decide_eq_false hmatch, EndDeviceBindRun.answerPair, respond_eq hroom]
    refine ⟨hsound.toHistory.pair h1 h2 rfl rfl ?_ rfl ?_ rfl,
      hsound.wellFormed, ⟨hjob, rfl⟩⟩
    · rw [BindFate.responses, hstatus]
      rfl
    · rw [hbegun]
      rfl
  case pos =>
    have hstatus : (BindFate.pair first ind).status = ZdpStatus.success := if_pos hmatch
    have hbegun : (BindFate.pair first ind).begun = some (first, ind) := by
      rw [BindFate.begun, hstatus, if_pos rfl]
    obtain ⟨hprofile, hpairs⟩ := hmatch
    obtain ⟨hsaved, hfull⟩ := saved_checkClusterLists run.ctx hprofile (hclusters hprofile)
    have hsaved1 : (((run.ctx.checkClusterLists first.frame ind.frame).save
        first ind).bindDeviceInfo .dev1).endDeviceBindParam = some first := by
      rw [EndDeviceBindCtx.checkClusterLists, if_pos hprofile]
      exact h1
    rw [decide_eq_true ⟨hprofile, hpairs⟩, EndDeviceBindRun.answerPair, respond_eq hroom]
    refine ⟨hsound.toHistory.pair h1 h2 rfl rfl ?_ rfl ?_ rfl,
      hsound.wellFormed, context_of_underway hsaved1 rfl rfl ?_⟩
    · rw [BindFate.responses, hstatus]
      rfl
    · rw [hbegun, inProgress, param1, hsaved1]
      rfl
    · refine ⟨hsaved, fun h => absurd rfl h, hpairs, ?_, _, rfl,
        .outBuf hfull fun pair => Iff.rfl⟩
      have hlength : (bindPairs (of first ind)).length =
          (sharedClusters (of first ind) .dev1).length +
            (sharedClusters (of first ind) .dev2).length := by
        rw [bindPairs, List.length_append, List.length_map, List.length_map]
      rw [left, hfull, hfull, hlength]
      exact (Nat.zero_add _).le

theorem Sound.kept (hsound : run.Sound network) (h1 : run.param1 = none)
    (h2 : run.param2 = none) (hjob : run.job = none) :
    Sound network { run with
      received := run.received ++ [ind]
      ctx := run.ctx.setInfo .dev1
        { run.ctx.bindDeviceInfo .dev1 with endDeviceBindParam := some ind }
      bindTimer := some ind } := by
  generalize hnext : ({ run with
      received := run.received ++ [ind]
      ctx := run.ctx.setInfo .dev1
        { run.ctx.bindDeviceInfo .dev1 with endDeviceBindParam := some ind }
      bindTimer := some ind } : EndDeviceBindRun) = next
  have h1' : next.param1 = some ind := by
    rw [← hnext]
    rfl
  have h2' : next.param2 = none := by
    rw [← hnext]
    exact h2
  have hwaiting := hsound.received
  have hprocedures := hsound.procedures
  rw [waiting, h1, h2] at hwaiting
  rw [inProgress, h1] at hprocedures
  refine ⟨⟨?received, ?responses, ?procedures, ?toggled⟩, ?wellFormed,
    context_of_waiting h1' h2' ?context⟩
  case received =>
    have hold : run.received.Perm (run.fates.flatMap BindFate.requests) :=
      hwaiting.trans (.of_eq (List.append_nil _))
    rw [waiting, h1', h2', ← hnext]
    exact hold.append_right [ind]
  case procedures =>
    rw [inProgress, h2', ← hnext]
    exact hprocedures
  all_goals subst hnext
  · exact hsound.responses
  · exact hsound.toggled
  · exact hsound.wellFormed
  · exact ⟨hjob, rfl⟩

theorem Sound.request (hsound : run.Sound network) {alarmRoom : Bool}
    (hsmooth : run.Smooth network (.request ind room alarmRoom)) :
    (run.zbZdoEndDeviceBindHandler ind room alarmRoom).Sound network := by
  obtain ⟨hroom, halarm, hclusters⟩ := hsmooth
  have hcontext := hsound.context
  rw [Context] at hcontext
  rw [answeredWith] at hroom
  rw [zbZdoEndDeviceBindHandler]
  cases hendp : ind.frame.validEndp with
  | false =>
    rw [hendp, if_neg Bool.false_ne_true] at hroom
    rw [endDeviceBind_invalid hendp]
    exact hsound.turnedAway (.invalid ind) rfl rfl
      (hroom ind (List.mem_singleton_self ind)) rfl
  | true =>
    rw [hendp, if_pos rfl] at hroom
    cases h1 : run.param1 with
    | none =>
      rw [h1] at hcontext
      cases h2 : run.param2 with
      | some second =>
        rw [h2] at hcontext
        exact hcontext.elim
      | none =>
        rw [h2] at hcontext
        obtain ⟨hjob, htimer⟩ := hcontext
        rw [map_none, endDeviceBind_waiting hendp]
        dsimp only
        rw [if_pos (halarm hendp h1)]
        exact hsound.kept h1 h2 hjob
    | some first =>
      rw [h1] at hcontext hroom
      cases h2 : run.param2 with
      | some second =>
        rw [h2] at hroom
        rw [map_some, isSome_some, endDeviceBind_timeout hendp]
        exact hsound.turnedAway (.busy ind) rfl rfl
          (hroom ind (List.mem_singleton_self ind)) rfl
      | none =>
        rw [h2] at hroom
        have hclusters' := hclusters hendp h2 first h1
        have hsound' := hsound.answerPair h1 h2
          (hroom first (by simp)) (hroom ind (by simp)) hclusters'
        rw [map_some, isSome_none, zdoEndDeviceBindHandler_pair hendp hclusters']
        by_cases hmatch : first.frame.profileId = ind.frame.profileId ∧
            bindPairs (of first ind) ≠ []
        · rw [decide_eq_true hmatch] at hsound'
          rw [if_pos hmatch]
          exact hsound'
        · rw [decide_eq_false hmatch] at hsound'
          rw [if_neg hmatch]
          exact hsound'

theorem Sound.step (hsound : run.Sound network) {event : EndDeviceBindEvent}
    (hsmooth : run.Smooth network event)
    (hstep : run.step event = some next) : next.Sound network := by
  cases event with
  | request ind room alarmRoom =>
    obtain rfl := some.inj hstep
    exact hsound.request hsmooth
  | timer room => exact hsound.timer hsmooth hstep
  | outBuf unset => exact hsound.outBuf hsmooth hstep
  | arrival => exact hsound.arrival hsmooth hstep
  | callback unset => exact hsound.callback hsmooth hstep
  | lost => exact hsmooth.elim
  | elsewhere device =>
    obtain rfl := some.inj hstep
    exact hsound.elsewhere hsmooth.1 hsmooth.2

theorem sound_start (network : ℕ → IeeeAddr) : start.Sound network where
  received := .nil
  responses := rfl
  procedures := rfl
  toggled := nofun
  wellFormed _ := wellFormed_of_empty rfl rfl
  context := ⟨rfl, rfl⟩

theorem Sound.toggles (hsound : run.Sound network) : run.Toggles network := by
  refine ⟨hsound.toHistory, ?_⟩
  have hcontext := hsound.context
  rw [Context] at hcontext
  rw [Returns]
  split at hcontext
  case h_1 => trivial
  case h_2 => exact hcontext.2
  case h_3 =>
    obtain ⟨-, hunderway⟩ := hcontext
    obtain ⟨job, hjob, -⟩ := hunderway.stage
    exact ⟨hjob ▸ rfl, (Nat.le_add_right ..).trans hunderway.bounded⟩
  case h_4 => exact hcontext

end Coordinator

def bindIndOf (target : UInt8) (clusters : List UInt8)
    (hfits : 14 + clusters.length ≤ ioBufSize) : ZdpInd where
  param := target.toNat
  fc := 0
  srcAddr := target.toNat
  clusterId := ZdpCluster.endDeviceBindReq
  frame :=
    { mem := fun address =>
        ([target, target, 0, 0, 0, 0, 0, 0, 0, 0, 0, 1, 4, 1] ++
          clusters).getD address.toNat 0
      dataOffset := 0
      len := 14 + clusters.length
      fits := by simpa using hfits }

def outputOf6 : ZdpInd := bindIndOf 1 [0, 1, 6, 0] (by decide)

def inputOf6 : ZdpInd := bindIndOf 2 [1, 6, 0, 0] (by decide)

def sampleNetwork (address : ℕ) : IeeeAddr :=
  ⟨.zero, ⟨.ofNat address, 0, 0, 0, 0⟩⟩

def acquainted : ℕ → BindingState := fun _ =>
  { addr :=
      { AddrGlobals.zeroed with
        usedManufacturer := fun i => i = 0
        addrMap := fun ref =>
          { ieeeAddr := ⟨0, (sampleNetwork (ref + 1)).deviceId⟩
            addr := ref + 1
            used := ref < 2
            lockCnt := 0
            clock := false }
        shortSorted := id
        nElements := 2
        nSortedElements := 2 }
    binding := .zeroed }

end EndDeviceBindRun

end Zboss
