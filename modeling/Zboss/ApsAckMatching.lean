import Zboss.RetransmissionSlots

/-!
# Matching of APS acknowledgements

Which entry `aps_ack_frame_handle` takes for an acknowledgement.  An entry does
not tell whether it is in use for data or for a command, only the packet in its
buffer does, and a free entry is known by an address which is a 16-bit value like
any other.
-/

namespace Zboss

open TransitionSystem

def ApsGlobals.kind (g : ApsGlobals) (i : ℕ) : ApsFrameType :=
  (g.fc (g.hash i).buf).frameType

def ApsAckHdr.kind (hdr : ApsAckHdr) : ApsFrameType :=
  if hdr.ackFormat then .command else .data

structure ApsAckHdr.Answers (hdr : ApsAckHdr) (g : ApsGlobals) (i : ℕ) : Prop where
  lt : i < nApsRetransEntries
  used : (g.hash i).state ≠ .free
  addr : (g.hash i).addr = hdr.srcAddr
  apsCounter : (g.hash i).apsCounter = hdr.apsCounter
  kind : g.kind i = hdr.kind
  endpoints : g.kind i = .data → (g.hash i).clusterid = hdr.clusterid ∧
      (g.hash i).srcEndpoint = hdr.dstEndpoint ∧
      (g.hash i).dstEndpoint = hdr.srcEndpoint

def SameEntsBut (g g' : ApsGlobals) (i : ℕ) : Prop :=
  ∀ j < nApsRetransEntries, j ≠ i → g'.hash j = g.hash j

def ApsGlobals.completion (g : ApsGlobals) (i : ℕ) : ApsOutput :=
  match g.kind i with
  | .command => .freeBuf (g.hash i).buf
  | .data | .ack => .dataConfirm (g.hash i).buf (some .ok)

/-- The acknowledgement is dropped, or the entry which it answers waits for the
confirm of the lower layers, or its request is completed. -/
inductive AckHandled (g : ApsGlobals) (hdr : ApsAckHdr)
    (result : ApsGlobals × List ApsOutput) : Prop
  | dropped (hhash : ∀ i < nApsRetransEntries, result.1.hash i = g.hash i)
      (houtputs : result.2 = [])
  | acked (i : ℕ) (hanswers : hdr.Answers g i) (hothers : SameEntsBut g result.1 i)
      (hent : result.1.hash i = { g.hash i with state := .sentMacNotConfirmedApsAcked })
      (houtputs : result.2 = [])
  | completed (i : ℕ) (hanswers : hdr.Answers g i) (hothers : SameEntsBut g result.1 i)
      (hfree : (result.1.hash i).state = .free)
      (houtputs : result.2 = [g.completion i])

/-- The first entry which the search takes is in use, for the kind of packet
which is acknowledged in this format. -/
def ApsAckHdr.Fits (hdr : ApsAckHdr) (g : ApsGlobals) : Prop :=
  ∀ i, g.entOfAck hdr = some i → (g.hash i).state ≠ .free ∧ g.kind i = hdr.kind

section AckFrame

variable {g : ApsGlobals} {hdr : ApsAckHdr} {i : ℕ}

theorem ApsAckHdr.matches_iff {ent : ApsRetransEnt} : hdr.matches ent = true ↔
      (ent.addr = hdr.srcAddr ∧ ent.apsCounter = hdr.apsCounter) ∧
        (hdr.ackFormat = true ∨ (ent.clusterid = hdr.clusterid ∧
            ent.srcEndpoint = hdr.dstEndpoint) ∧ ent.dstEndpoint = hdr.srcEndpoint) := by
  simp [ApsAckHdr.matches]

theorem answers_of_entOfAck
    (hent : g.entOfAck hdr = some i) (hused : (g.hash i).state ≠ .free)
    (hkind : g.kind i = hdr.kind) : hdr.Answers g i := by
  obtain ⟨hi, hmatch⟩ := ApsGlobals.entOfAck_eq_some hent
  obtain ⟨⟨haddr, hcounter⟩, hfields⟩ := ApsAckHdr.matches_iff.mp hmatch
  refine ⟨hi, hused, haddr, hcounter, hkind, ?_⟩
  intro hdata
  rw [hkind, ApsAckHdr.kind] at hdata
  rcases hfields with hformat | ⟨⟨hcluster, hsrc⟩, hdst⟩
  · rw [hformat, if_pos rfl] at hdata
    contradiction
  · exact ⟨hcluster, hsrc, hdst⟩

theorem setEnt_hash_of_ne (ent : ApsRetransEnt) {j : ℕ} (hj : j ≠ i) :
    (g.setEnt i ent).hash j = g.hash j :=
  Function.update_of_ne hj _ _

theorem setEnt_hash_self (ent : ApsRetransEnt) : (g.setEnt i ent).hash i = ent :=
  Function.update_self _ _ _

theorem doneWithThisAck_others (ackFormat : Bool) (status : ApsStatus) :
    SameEntsBut g (doneWithThisAck g i ackFormat status).1 i :=
  fun _ _ hj => setEnt_hash_of_ne _ hj

theorem doneWithThisAck_state (ackFormat : Bool) (status : ApsStatus) :
    ((doneWithThisAck g i ackFormat status).1.hash i).state = .free :=
  congrArg ApsRetransEnt.state (setEnt_hash_self _)

theorem doneWithThisAck_outputs (hkind : g.kind i = hdr.kind) :
    (doneWithThisAck g i hdr.ackFormat .ok).2 = [g.completion i] := by
  rw [ApsGlobals.completion, hkind, ApsAckHdr.kind]
  cases hformat : hdr.ackFormat with
  | true => simp [doneWithThisAck]
  | false => simp [doneWithThisAck]

theorem apsAckFrameHandle_of_none (hent : g.entOfAck hdr = none) :
    apsAckFrameHandle g hdr = (g, []) := by
  rw [apsAckFrameHandle, hent]

section

variable (hent : g.entOfAck hdr = some i)

include hent

theorem apsAckFrameHandle_of_some : apsAckFrameHandle g hdr =
      if (g.hash i).state = .sentMacNotConfirmed then
        (g.setEnt i { g.hash i with state := .sentMacNotConfirmedApsAcked }, [])
      else doneWithThisAck g i hdr.ackFormat .ok := by
  rw [apsAckFrameHandle, hent]

theorem ackHandled_of_answers (hanswers : hdr.Answers g i) :
    AckHandled g hdr (apsAckFrameHandle g hdr) := by
  rw [apsAckFrameHandle_of_some hent]
  split
  · exact .acked i hanswers (fun _ _ hj => setEnt_hash_of_ne _ hj) (setEnt_hash_self _) rfl
  · exact .completed i hanswers (doneWithThisAck_others _ _)
      (doneWithThisAck_state _ _) (doneWithThisAck_outputs hanswers.kind)

theorem AckHandled.answers (hhandled : AckHandled g hdr (apsAckFrameHandle g hdr)) :
    hdr.Answers g i := by
  have hi := (ApsGlobals.entOfAck_eq_some hent).1
  rw [apsAckFrameHandle_of_some hent] at hhandled
  split at hhandled
  · rename_i hwaits
    have hself := setEnt_hash_self (g := g) (i := i)
      { g.hash i with state := .sentMacNotConfirmedApsAcked }
    cases hhandled with
    | dropped hhash _ =>
      have hstate := congrArg ApsRetransEnt.state (hhash i hi)
      rw [hself, hwaits] at hstate
      contradiction
    | acked j hanswers hothers _ _ =>
      by_cases hji : j = i
      · exact hji ▸ hanswers
      · have hstate := congrArg ApsRetransEnt.state (hothers i hi (Ne.symm hji))
        rw [hself, hwaits] at hstate
        contradiction
    | completed j _ _ _ houtputs => contradiction
  · cases hhandled with
    | dropped _ houtputs => contradiction
    | acked _ _ _ _ houtputs => contradiction
    | completed j hanswers _ hfree _ =>
      by_cases hji : j = i
      · exact hji ▸ hanswers
      · have hother : (doneWithThisAck g i hdr.ackFormat .ok).1.hash j =
            g.hash j := setEnt_hash_of_ne _ hji
        rw [hother] at hfree
        exact absurd hfree hanswers.used

end

end AckFrame

/-- An acknowledgement is handled right exactly if the first entry which is taken
for it is in use, for a packet of its kind. -/
theorem ackHandled_iff_fits (g : ApsGlobals) (hdr : ApsAckHdr) :
    AckHandled g hdr (apsAckFrameHandle g hdr) ↔ hdr.Fits g := by
  constructor
  · intro hhandled i hent
    have hanswers := hhandled.answers hent
    exact ⟨hanswers.used, hanswers.kind⟩
  · intro hfits
    cases hent : g.entOfAck hdr with
    | none =>
        rw [apsAckFrameHandle_of_none hent]
        exact .dropped (fun _ _ => rfl) rfl
    | some i =>
        obtain ⟨hused, hkind⟩ := hfits i hent
        exact ackHandled_of_answers hent (answers_of_entOfAck hent hused hkind)

/-- An acknowledgement of device 1 for its first request, in the format for
commands. -/
def commandAckOfOne : ApsAckHdr := ⟨1, true, 0, 0, 0, 0⟩

def requestSent : Option ApsGlobals :=
  run ApsEvent.apply (zbApsInit 0) [.dataRequest 1 requestToOne true, .nldeConfirm 1]

/-- The buffer of the request is freed, and nobody is told. -/
theorem not_ackHandled_otherFormat :
    requestSent.map (fun g => (apsAckFrameHandle g commandAckOfOne).2) =
        some [.freeBuf 1] ∧
      ¬ ∀ g hdr, AckHandled g hdr (apsAckFrameHandle g hdr) := by
  refine ⟨by decide +kernel, ?_⟩
  intro hhandled
  have hsent : requestSent.map (fun g =>
      (g.entOfAck commandAckOfOne, g.kind 0)) = some (some 0, .data) := by
    decide +kernel
  obtain ⟨g, -, heq⟩ := Option.map_eq_some_iff.mp hsent
  obtain ⟨hent, hdata⟩ := Prod.mk.inj heq
  have hkind := ((hhandled g commandAckOfOne).answers hent).kind
  rw [hdata] at hkind
  contradiction

end Zboss
