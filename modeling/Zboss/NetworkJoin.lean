import Zboss.NetworkDescriptors

/-!
# Joining a network which was discovered

`zb_nlme_network_discovery_confirm` looks through the descriptors of a
discovery. Its loop counts the descriptors and does not go to the next one.
-/

namespace Zboss

open Option

/-- The roles and the options of the build, and what is configured. -/
structure JoinConfig where
  routerRole : Bool
  proCompatible : Bool
  useExtendedPanId : ExtPanId
  deviceType : DeviceType
  rxOnWhenIdle : Bool

structure NlmeJoinRequest where
  extendedPanId : ExtPanId
  scanChannels : UInt32
  capabilityInformation : UInt8
  rejoinNetwork : UInt8
  scanDuration : UInt8
  securityEnabled : UInt8
  deriving DecidableEq

inductive DiscoveryCall where
  | joinRequest (request : NlmeJoinRequest)
  | startupComplete (status : UInt8)
  deriving DecidableEq

def statusNotPermitted : UInt8 := 0xC3

namespace JoinConfig

def Qualifies (config : JoinConfig) (dsc : NetworkDescriptor) : Bool :=
  config.useExtendedPanId == 0 || dsc.extendedPanId == config.useExtendedPanId

def capability (config : JoinConfig) (dsc : NetworkDescriptor) : UInt8 :=
  let joinsAsRouter :=
    config.routerRole && (config.deviceType == .none || config.deviceType == .router) &&
      (!config.proCompatible || dsc.stackProfile == 1)
  let bit (i : UInt8) : UInt8 := 1 <<< i
  let cap :=
    if joinsAsRouter then bit 1 ||| bit 2 ||| bit 3
    else if config.rxOnWhenIdle then bit 3 else 0
  cap ||| bit 7

def request (config : JoinConfig) (dsc : NetworkDescriptor) : NlmeJoinRequest where
  extendedPanId := dsc.extendedPanId
  scanChannels := 0
  capabilityInformation := config.capability dsc
  rejoinNetwork := 0
  scanDuration := 0
  securityEnabled := 0

def joinLoop (config : JoinConfig) (dsc : Option NetworkDescriptor) :
    ℕ → Option (Option NlmeJoinRequest)
  | 0 => some none
  | remaining + 1 => do
      let found ← dsc
      if config.Qualifies found then some (some (config.request found))
      else config.joinLoop dsc remaining

/-- Returns the calls, `none` where a descriptor is read which is not there. -/
def zbNlmeNetworkDiscoveryConfirm (config : JoinConfig)
    (cnf : NetworkDiscoveryConfirm) : Option (List DiscoveryCall) :=
  (config.joinLoop cnf.descriptors.head? cnf.networkCount.toNat).map fun req =>
    match req with
    | some req => [.joinRequest req]
    | none => [.startupComplete statusNotPermitted]

/-- There is one request, for the first descriptor which qualifies and with what
is derived from it, or a failure if there is none. -/
def JoinsWanted (config : JoinConfig) (cnf : NetworkDiscoveryConfirm) : Prop :=
  config.zbNlmeNetworkDiscoveryConfirm cnf = some
    (match cnf.descriptors.find? config.Qualifies with
    | some dsc => [.joinRequest (config.request dsc)]
    | none => [.startupComplete statusNotPermitted])

def FirstDecides (config : JoinConfig) (cnf : NetworkDiscoveryConfirm) : Prop :=
  ∀ first rest, cnf.descriptors = first :: rest → config.Qualifies first = true ∨
      ∀ other ∈ rest, config.Qualifies other = false

variable {config : JoinConfig} {cnf : NetworkDiscoveryConfirm}

theorem joinLoop_of_not {dsc : NetworkDescriptor}
    (hnot : config.Qualifies dsc = false) (remaining : ℕ) :
    config.joinLoop (some dsc) remaining = some none := by
  induction remaining with
  | zero => rfl
  | succ remaining ih =>
    rw [joinLoop, bind_eq_bind, bind_some, hnot]
    exact ih

theorem joinsWanted_iff_of_count
    (hcount : cnf.networkCount.toNat = cnf.descriptors.length) :
    config.JoinsWanted cnf ↔ config.FirstDecides cnf := by
  rw [JoinsWanted, zbNlmeNetworkDiscoveryConfirm, FirstDecides, hcount]
  cases hdescriptors : cnf.descriptors with
  | nil => exact iff_of_true rfl nofun
  | cons first rest =>
    rw [List.head?_cons, List.length_cons]
    cases hfirst : config.Qualifies first with
    | true =>
      rw [joinLoop, bind_eq_bind, bind_some, hfirst, List.find?_cons_of_pos hfirst]
      refine iff_of_true rfl fun _ _ heq => ?_
      exact .inl ((List.cons.inj heq).1 ▸ hfirst)
    | false =>
      rw [joinLoop_of_not hfirst, List.find?_cons_of_neg (by simp [hfirst])]
      cases hfind : rest.find? config.Qualifies with
      | some wanted =>
        refine iff_of_false nofun fun hdecides => ?_
        have hothers := (hdecides first rest rfl).resolve_left (by simp [hfirst])
        have hwanted := hothers wanted (List.mem_of_find?_eq_some hfind)
        rw [List.find?_some hfind] at hwanted
        contradiction
      | none =>
        refine iff_of_true rfl fun _ _ heq => .inr fun other hother => ?_
        obtain ⟨-, rfl⟩ := List.cons.inj heq
        exact Bool.eq_false_of_not_eq_true (List.find?_eq_none.mp hfind other hother)

/-- The descriptors which the discovery ends with are as many as are counted,
and for such a list the wanted network is joined exactly if it is the first one
or is not there. -/
theorem joinsWanted_iff (config : JoinConfig) : (∀ (nwk : DiscoveryNwk) next cnf,
      nwk.mlmeScanConfirmDisc = some (next, .discoveryConfirm cnf) →
        cnf.networkCount.toNat = cnf.descriptors.length) ∧
      ∀ cnf : NetworkDiscoveryConfirm, cnf.networkCount.toNat = cnf.descriptors.length →
          (config.JoinsWanted cnf ↔ config.FirstDecides cnf) := by
  refine ⟨fun nwk next cnf hscan => ?_, fun cnf hcount => joinsWanted_iff_of_count hcount⟩
  obtain ⟨_, _, hconfirm, -, -, hdescribes⟩ := nwk.describesNetworks_mlmeScanConfirmDisc
  obtain ⟨rfl, rfl⟩ := Prod.mk.inj (some.inj (hconfirm.symm.trans hscan))
  exact (hdescribes cnf rfl).2.count

def networkOf (panId : ExtPanId) : NetworkDescriptor :=
  ⟨panId, ⟨11, by decide⟩, 1, 2, 15, 15, true, true, true⟩

def wantsSecond : JoinConfig := ⟨false, true, 2, .endDevice, true⟩

def wantedBehind : NetworkDiscoveryConfirm := ⟨2, 0, [networkOf 1, networkOf 2]⟩

def wantsFirst : JoinConfig := { wantsSecond with useExtendedPanId := 1 }

theorem joinsWanted_iff_first : wantsFirst.JoinsWanted wantedBehind :=
  ((joinsWanted_iff wantsFirst).2 wantedBehind rfl).mpr
    fun _ _ heq => .inl ((List.cons.inj heq).1 ▸ by decide)

theorem not_joinsWanted_behind : wantsSecond.zbNlmeNetworkDiscoveryConfirm wantedBehind =
        some [.startupComplete statusNotPermitted] ∧
      ¬ ∀ (config : JoinConfig) (cnf : NetworkDiscoveryConfirm),
        cnf.networkCount.toNat = cnf.descriptors.length → config.JoinsWanted cnf := by
  refine ⟨by decide, fun hjoins => ?_⟩
  have hwanted := hjoins wantsSecond wantedBehind rfl
  exact absurd hwanted (by unfold JoinsWanted; decide)

end JoinConfig

end Zboss
