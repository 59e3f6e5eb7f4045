import Zboss.PanidConflict

/-!
# Update identifiers after a change of the PAN identifier
-/

namespace Zboss

def PanidDevice.HasUpdateId (device : PanidDevice) (id : UInt8) : Prop :=
  device.updateId = id ∧ device.beaconPayload.nwkUpdateId = id

instance (device : PanidDevice) (id : UInt8) :
    Decidable (device.HasUpdateId id) :=
  inferInstanceAs (Decidable (_ ∧ _))

def PanidCall.announcedId : PanidCall → Option UInt8
  | .callback (.nwkForward (.update cmd)) _ => some cmd.updateId
  | _ => none

def announcedIds (draws : List UInt16) (device : PanidDevice) (param : ℕ) :
    Option (List UInt8) :=
  (zbPanidConflictNetworkUpdate draws device param).map fun result =>
    (zbPanidConflictSendNwkUpdate result.1 param).2.filterMap PanidCall.announcedId

theorem zbPanidConflictNetworkUpdateRecv_router
    (device : PanidDevice) (upd : NwkUpdateCmd) :
    (zbPanidConflictNetworkUpdateRecv .router device upd).1.HasUpdateId
      (upd.updateId - 1) := ⟨rfl, rfl⟩

theorem zbPanidConflictNetworkUpdateRecv_endDevice
    (device : PanidDevice) (upd : NwkUpdateCmd) :
    (zbPanidConflictNetworkUpdateRecv .endDevice device upd).1.updateId = upd.updateId ∧
      (zbPanidConflictNetworkUpdateRecv .endDevice device
        upd).1.beaconPayload = device.beaconPayload := ⟨rfl, rfl⟩

theorem zbPanidConflictNetworkUpdateRecv_hasUpdateId
    (role : StackRole) (device : PanidDevice) (upd : NwkUpdateCmd) :
    (zbPanidConflictNetworkUpdateRecv role device upd).1.HasUpdateId upd.updateId ↔
      role = .endDevice ∧ device.beaconPayload.nwkUpdateId = upd.updateId := by
  cases role with
  | router =>
    refine iff_of_false ?_ (fun h => StackRole.noConfusion h.1)
    rintro ⟨hnib, -⟩
    rw [(zbPanidConflictNetworkUpdateRecv_router device upd).1] at hnib
    simp at hnib
  | endDevice =>
    obtain ⟨hnib, hpayload⟩ := zbPanidConflictNetworkUpdateRecv_endDevice device upd
    unfold PanidDevice.HasUpdateId
    rw [hnib, hpayload]
    simp

theorem announcedIds_eq {draws : List UInt16} {device : PanidDevice} {param : ℕ}
    {ids : List UInt8} (hids : announcedIds draws device param = some ids) :
    ids = [device.updateId] := by
  obtain ⟨result, hresult, rfl⟩ := Option.map_eq_some_iff.mp hids
  obtain ⟨newPanid, -, rfl⟩ := Option.map_eq_some_iff.mp hresult
  rfl

/-- A network update leaves all three identifiers equal only on an end device
whose beacon payload has the identifier already, and no resolution announces
the next identifier. -/
theorem updateIds_agree_iff
    (role : StackRole) (device : PanidDevice) (param : ℕ) (upd : NwkUpdateCmd)
    (haccepts : device.Accepts upd) :
    ((nwkUpdateIndication role device param upd).1.HasUpdateId upd.updateId ↔
        role = .endDevice ∧ device.beaconPayload.nwkUpdateId = upd.updateId) ∧
      ∀ draws ids, announcedIds draws device param = some ids →
        ids ≠ [device.updateId + 1] := by
  refine ⟨?_, ?_⟩
  · rw [nwkUpdateIndication, if_pos haccepts]
    exact zbPanidConflictNetworkUpdateRecv_hasUpdateId role device upd
  · intro draws ids hids hnext
    have hid := announcedIds_eq hids
    rw [hnext] at hid
    simp at hid

/-- A device with update identifier 4, on the network with PAN identifier
`0x1AAA`. -/
def runningDevice (shortAddr : UInt16) : PanidDevice where
  state := .idle
  joined := true
  joinedPro := false
  shortAddr := shortAddr
  nwkManagerAddr := 0
  panId := 0x1AAA
  extPanId := 7
  depth := 0
  updateId := 4
  associationPermit := true
  beaconPayload := ⟨0, 1, 2, true, 0, true, 7, 0xFFFFFF, 4⟩
  beaconPayloadLength := 15
  knownPanids := .replicate 8 0
  newPanid := 0
  panidConflict := false

theorem updateIds_agree_runningDevice :
    ((nwkUpdateIndication .endDevice (runningDevice 1) 3
          ⟨1, 7, 4, 0x1BBB⟩).1.HasUpdateId 4 ↔
        StackRole.endDevice = .endDevice ∧
          (runningDevice 1).beaconPayload.nwkUpdateId = 4) ∧
      ∀ draws ids, announcedIds draws (runningDevice 1) 3 = some ids →
        ids ≠ [(runningDevice 1).updateId + 1] :=
  updateIds_agree_iff .endDevice (runningDevice 1) 3 ⟨1, 7, 4, 0x1BBB⟩ (by decide)

/-- A router is left with identifier 4 by a command with identifier 5, and the
manager with identifier 4 announces 4. -/
theorem not_updateIds_agree : ¬ ((∀ role device param upd, device.Accepts upd →
          (nwkUpdateIndication role device param upd).1.HasUpdateId upd.updateId) ∧
        ∀ draws device param ids, announcedIds draws device param = some ids →
          ids = [device.updateId + 1]) := by
  rintro ⟨hrecv, -⟩
  exact absurd (hrecv .router (runningDevice 1) 3 ⟨1, 7, 5, 0x1BBB⟩ (by decide))
    (by decide)

end Zboss
