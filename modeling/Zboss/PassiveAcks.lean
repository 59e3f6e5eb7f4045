import Zboss.BroadcastEntries

/-!
# Passive acknowledgements

When a copy is overheard, the broadcast is not sent again if as many bits are
set as there are routers among the neighbors.  The bits are those of neighbors
which were overheard to relay it, but also those of children which got a copy of
their own.  When it is sent, an index of a loop is compared instead.
-/

namespace Zboss

open Function Option NwkMain Finset TransitionSystem

def isRelay (zg : Globals) (n : ℕ) : Bool :=
  let ent := zg.neighbor.baseNeighbor n
  ent.used && (ent.deviceType == .router || ent.deviceType == .coordinator)

def relayRows (zg : Globals) : Finset ℕ :=
  (range zg.neighbor.baseNeighborSize).filter fun n => isRelay zg n

def relaysExcept (zg : Globals) (srcAddr : ℕ) : Finset ℕ :=
  (relayRows zg).filter fun n => rowAddress zg n ≠ srcAddr

/-- As many bits are set in vain, one more for a relayed broadcast, as there
are rows of the source among the routers.  Where no two rows have one address,
this says that no bit is set in vain, and that the source of a relayed broadcast
is one of the routers. -/
def NwkMain.Balanced (nwk : NwkMain) (ent : NwkBroadcastRetransmit) : Prop :=
  (ent.passiveAck \ relaysExcept nwk.mesh.zg ent.srcAddr).card +
      (if ent.srcAddr = nwk.mesh.address then 0 else 1) =
    (relayRows nwk.mesh.zg \ relaysExcept nwk.mesh.zg ent.srcAddr).card

structure EarlyStop where
  relays : Finset ℕ
  heard : Finset ℕ
  deriving DecidableEq

/-- `heard` has the neighbors which have been overheard to relay the broadcast
of each entry, and `stops` the broadcasts given up before
`ZB_NWK_MAX_BROADCAST_RETRIES` transmissions. -/
structure PassiveRun where
  nwk : NwkMain
  heard : ℕ → Finset ℕ
  stops : List EarlyStop

/-- `environment` is any other code, which leaves the entries alone. -/
inductive PassiveEvent where
  | receive (param : ℕ) (packet : NwkPacket) (lqi : UInt8) (unsecure : NwkMain.Unsecure)
  | forward (param : ℕ)
  | transmit (param : ℕ)
  | environment (changed : NwkMain)

namespace PassiveRun

def hear (run : PassiveRun) (packet : NwkPacket) : ℕ → Finset ℕ :=
  match run.nwk.overheard packet with
  | some (i, n) => update run.heard i (insert n (run.heard i))
  | none => run.heard

def renew (run : PassiveRun) (next : NwkMain) : ℕ → Finset ℕ := fun i =>
  if !run.nwk.brrt.used i && next.brrt.used i then ∅ else run.heard i

def earlyStops (run : PassiveRun) (heard : ℕ → Finset ℕ) (next : NwkMain) :
    List EarlyStop :=
  (List.range nwkBrrTableSize).filterMap fun i =>
    let ent := next.brrt.ents i
    if run.nwk.brrt.used i ∧ ¬ next.brrt.used i ∧ ent.retries < nwkMaxBroadcastRetries then
      some ⟨relaysExcept next.mesh.zg ent.srcAddr, heard i⟩
    else none

def follow (run : PassiveRun) (heard : ℕ → Finset ℕ) (next : NwkMain) : PassiveRun where
  nwk := next
  heard := heard
  stops := run.earlyStops heard next ++ run.stops

def step (run : PassiveRun) : PassiveEvent → Option PassiveRun
  | .receive param packet lqi unsecure =>
      (run.nwk.zbMcpsDataIndication param packet lqi unsecure).map
        fun result => run.follow (run.hear packet) result.1
  | .forward param =>
      (run.nwk.zbNwkForward param).map
        fun result => run.follow (run.renew result.1) result.1
  | .transmit param =>
      (run.nwk.nwkBroadcastTransmition param).map
        fun result => run.follow run.heard result.1
  | .environment changed =>
      some (run.follow run.heard { changed with brrt := run.nwk.brrt })

def start (nwk : NwkMain) : PassiveRun where
  nwk := { nwk with brrt := .zeroed ⟨0, 0, none, 0, 0, 0, 0, ∅⟩ }
  heard _ := ∅
  stops := []

def Sound (run : PassiveRun) : Prop :=
  ∀ stop ∈ run.stops, stop.relays ⊆ stop.heard

structure SameNeighbors (nwk nwk' : NwkMain) : Prop where
  address : nwk'.mesh.address = nwk.mesh.address
  relays : relayRows nwk'.mesh.zg = relayRows nwk.mesh.zg
  rows : ∀ n, rowAddress nwk'.mesh.zg n = rowAddress nwk.mesh.zg n

def KeepsNeighbors (run : PassiveRun) (event : PassiveEvent) : Prop :=
  ∀ next, run.step event = some next → SameNeighbors run.nwk next.nwk

/-- Where the count of the bits ends a broadcast before
`ZB_NWK_MAX_BROADCAST_RETRIES` transmissions, it is balanced; where the index of
the scans does, all bits of neighbors which relay are set. -/
def CountsRelays (run : PassiveRun) (event : PassiveEvent) : Prop :=
  (run.step event).isSome → match event with
    | .receive _ packet _ _ =>
        ∀ i n, run.nwk.overheard packet = some (i, n) →
          (run.nwk.ackedEnt i n).retries < nwkMaxBroadcastRetries →
          run.nwk.AckedByAll i n → run.nwk.Balanced (run.nwk.ackedEnt i n)
    | .transmit param =>
        param ≠ 0 → ∀ next i child, run.nwk.pickBroadcast = (next, some (i, child)) →
          ∀ ent, next.countTransmission (next.brrt.ents i) child = some ent →
            ent.neighborTableIterator = none →
            ent.retries < nwkMaxBroadcastRetries →
            run.nwk.AllAcked ent (NwkMain.scanIndex (next.brrt.ents i) i child) →
              Zboss.relaysExcept run.nwk.mesh.zg ent.srcAddr ⊆ ent.passiveAck
    | .forward _ | .environment _ => True

end PassiveRun

theorem passiveAckDevNum_eq (zg : Globals) :
    passiveAckDevNum zg = (relayRows zg).card := by
  rw [relayRows, card_def, filter_val,
    ← Multiset.countP_eq_card_filter, range_val, Multiset.range,
    Multiset.coe_countP]
  simp only [Bool.decide_eq_true]
  rfl

theorem relaysExcept_subset (zg : Globals) (srcAddr : ℕ) :
    relaysExcept zg srcAddr ⊆ relayRows zg :=
  filter_subset _ _

theorem NwkMain.AllAcked.subset_iff {nwk : NwkMain} {ent : NwkBroadcastRetransmit}
    (hall : nwk.AllAcked ent ent.passiveAck.card) :
    relaysExcept nwk.mesh.zg ent.srcAddr ⊆ ent.passiveAck ↔ nwk.Balanced ent := by
  have hbits := card_sdiff_add_card_inter ent.passiveAck
    (relaysExcept nwk.mesh.zg ent.srcAddr)
  have hrows := card_sdiff_add_card_eq_card (relaysExcept_subset nwk.mesh.zg ent.srcAddr)
  have hsubset : relaysExcept nwk.mesh.zg ent.srcAddr ⊆ ent.passiveAck ↔
      (ent.passiveAck ∩ relaysExcept nwk.mesh.zg ent.srcAddr).card =
        (relaysExcept nwk.mesh.zg ent.srcAddr).card := by
    constructor
    · intro hsub
      rw [inter_eq_right.mpr hsub]
    · intro hcard
      have heq := eq_of_subset_of_card_le (inter_subset_right : ent.passiveAck ∩
          relaysExcept nwk.mesh.zg ent.srcAddr ⊆ _) hcard.ge
      exact inter_eq_right.mp heq
  rw [hsubset, Balanced]
  unfold AllAcked at hall
  rw [passiveAckDevNum_eq] at hall
  rcases hall with ⟨hcount, hown⟩ | ⟨hcount, hother⟩
  · rw [if_pos hown]
    omega
  · rw [if_neg hother]
    omega

theorem NwkMain.EligibleChild.not_mem_relayRows
    {zg : Globals} {addr n : ℕ} (hchild : NwkMain.EligibleChild zg addr n) :
    n ∉ relayRows zg := by
  intro hmem
  have hrelay := (mem_filter.mp hmem).2
  rw [isRelay, hchild.deviceType] at hrelay
  simp at hrelay

structure BitsRight (relays : Finset ℕ) (ent : NwkBroadcastRetransmit) (heard : Finset ℕ) :
    Prop where
  bits : ∀ n ∈ relays, n ∈ ent.passiveAck ↔ n ∈ heard
  child : ∀ n, ent.neighborTableIterator = some n → n ∉ relays

section Bits

variable {nwk : NwkMain} {ent : NwkBroadcastRetransmit} {heard relays : Finset ℕ} {n : ℕ}

theorem BitsRight.passedOver
    (hright : BitsRight (relayRows nwk.mesh.zg) ent heard) (n : ℕ) :
    BitsRight (relayRows nwk.mesh.zg) (nwk.passedOver ent n) heard where
  bits := hright.bits
  child := by
    intro k hk
    exact (nextZeChildrenI_eq_some.mp hk).2.1.not_mem_relayRows

theorem BitsRight.insert_child (hright : BitsRight relays ent heard) (hn : n ∉ relays) :
    BitsRight relays { ent with passiveAck := insert n ent.passiveAck } heard where
  bits := by
    intro k hk
    dsimp only
    rw [mem_insert, or_iff_right (by rintro rfl; exact hn hk)]
    exact hright.bits k hk
  child := hright.child

theorem BitsRight.insert_heard (hright : BitsRight relays ent heard) (n : ℕ) :
    BitsRight relays { ent with passiveAck := insert n ent.passiveAck }
      (insert n heard) where
  bits := by
    intro k hk
    dsimp only
    rw [mem_insert, mem_insert, hright.bits k hk]
  child := hright.child

theorem BitsRight.counted {counted : NwkBroadcastRetransmit} {child : Option ℕ}
    (hright : BitsRight (relayRows nwk.mesh.zg) ent heard)
    (hchild : ∀ n, child = some n → ent.neighborTableIterator = some n)
    (hcount : nwk.countTransmission ent child = some counted) :
    BitsRight (relayRows nwk.mesh.zg) counted heard := by
  rcases countTransmission_eq_some hcount with
    ⟨-, rfl⟩ | ⟨n, hn, -, rfl⟩
  · exact ⟨hright.bits, hright.child⟩
  · exact (hright.passedOver n).insert_child (hright.child n (hchild n hn))

theorem BitsRight.subset_iff {relevant : Finset ℕ}
    (hright : BitsRight relays ent heard) (hsub : relevant ⊆ relays) :
    relevant ⊆ heard ↔ relevant ⊆ ent.passiveAck := by
  constructor
  · intro hheard n hn
    exact (hright.bits n (hsub hn)).mpr (hheard hn)
  · intro hacks n hn
    exact (hright.bits n (hsub hn)).mp (hacks hn)

end Bits

namespace PassiveRun

variable {run next : PassiveRun} {heard : ℕ → Finset ℕ} {after : NwkMain}

def AllRight (run : PassiveRun) : Prop :=
  ∀ i < nwkBrrTableSize, run.nwk.brrt.used i = true →
    BitsRight (relayRows run.nwk.mesh.zg) (run.nwk.brrt.ents i) (run.heard i)

theorem SameNeighbors.relaysExcept
    {nwk nwk' : NwkMain} (hsame : SameNeighbors nwk nwk') (srcAddr : ℕ) :
    Zboss.relaysExcept nwk'.mesh.zg srcAddr = Zboss.relaysExcept nwk.mesh.zg srcAddr := by
  unfold Zboss.relaysExcept
  simp only [hsame.relays, hsame.rows]

theorem sound_follow_iff : Sound (run.follow heard after) ↔ Sound run ∧
      ∀ i < nwkBrrTableSize, run.nwk.brrt.used i = true → after.brrt.used i = false →
        (after.brrt.ents i).retries < nwkMaxBroadcastRetries →
          Zboss.relaysExcept after.mesh.zg (after.brrt.ents i).srcAddr ⊆
            heard i := by
  have hstops : (∀ stop ∈ run.earlyStops heard after, stop.relays ⊆ stop.heard) ↔
      ∀ i < nwkBrrTableSize, run.nwk.brrt.used i = true → after.brrt.used i = false →
        (after.brrt.ents i).retries < nwkMaxBroadcastRetries →
          Zboss.relaysExcept after.mesh.zg (after.brrt.ents i).srcAddr ⊆
            heard i := by
    constructor
    · intro hall i hi hused hfreed hfew
      apply hall ⟨_, heard i⟩
      refine List.mem_filterMap.mpr ⟨i, List.mem_range.mpr hi, ?_⟩
      exact if_pos ⟨hused, by simp [hfreed], hfew⟩
    · intro hall stop hstop
      obtain ⟨i, hi, heq⟩ := List.mem_filterMap.mp hstop
      dsimp only at heq
      split at heq
      · rename_i hended
        obtain rfl := some.inj heq
        exact hall i (List.mem_range.mp hi) hended.1
          (Bool.eq_false_of_not_eq_true hended.2.1) hended.2.2
      · contradiction
  unfold Sound follow
  rw [List.forall_mem_append, hstops, and_comm]

theorem sound_follow_of_used
    (hkept : ∀ i, run.nwk.brrt.used i = true → after.brrt.used i = true) :
    Sound (run.follow heard after) ↔ Sound run := by
  rw [sound_follow_iff]
  apply and_iff_left
  intro i _ hused hfreed
  rw [hkept i hused] at hfreed
  contradiction

variable {i param : ℕ} {packet : NwkPacket} {event : PassiveEvent}

theorem sound_follow_of_putEnt {array : NwkArray nwkBrrTableSize NwkBroadcastRetransmit}
    {ent : NwkBroadcastRetransmit}
    (hsame : SameNeighbors run.nwk after) (hsound : Sound run)
    (hi : i < nwkBrrTableSize) (hused : run.nwk.brrt.used i = true)
    (harray : array.used = run.nwk.brrt.used)
    (hbrrt : after.brrt = (array.setEnt i ent).putEnt i)
    (hright : BitsRight (relayRows run.nwk.mesh.zg) ent (heard i)) :
    Sound (run.follow heard after) ↔ (ent.retries < nwkMaxBroadcastRetries →
        Zboss.relaysExcept run.nwk.mesh.zg ent.srcAddr ⊆ ent.passiveAck) := by
  have hent : after.brrt.ents i = ent := by
    rw [hbrrt]
    exact update_self _ _ _
  have hfreed : after.brrt.used i = false := by
    rw [hbrrt]
    exact update_self _ _ _
  have hothers : ∀ j, j ≠ i → after.brrt.used j = run.nwk.brrt.used j := by
    intro j hj
    rw [hbrrt, ← harray]
    exact update_of_ne hj _ _
  have hiff := hright.subset_iff (Zboss.relaysExcept_subset run.nwk.mesh.zg ent.srcAddr)
  rw [sound_follow_iff]
  constructor
  · rintro ⟨-, hall⟩ hfew
    have hheard := hall i hi hused hfreed (by rwa [hent])
    rw [hent, hsame.relaysExcept] at hheard
    exact hiff.mp hheard
  · intro hacks
    refine ⟨hsound, ?_⟩
    intro j hj husedj hfreedj hfew
    by_cases hji : j = i
    · subst hji
      rw [hent] at hfew ⊢
      rw [hsame.relaysExcept]
      exact hiff.mpr (hacks hfew)
    · rw [hothers j hji, husedj] at hfreedj
      contradiction

theorem allRight_follow (hsame : SameNeighbors run.nwk after)
    (hbits : ∀ i < nwkBrrTableSize, after.brrt.used i = true →
      BitsRight (relayRows run.nwk.mesh.zg) (after.brrt.ents i) (heard i)) :
    AllRight (run.follow heard after) := by
  intro i hi hused
  rw [follow]
  dsimp only
  rw [hsame.relays]
  exact hbits i hi hused

/-! ### Received frames -/

theorem hear_of_none (hnone : run.nwk.overheard packet = none) :
    run.hear packet = run.heard := by
  rw [hear, hnone]

theorem hear_self {i n : ℕ} (hcopy : run.nwk.overheard packet = some (i, n)) :
    run.hear packet i = insert n (run.heard i) := by
  rw [hear, hcopy]
  exact update_self _ _ _

theorem hear_of_ne {i j n : ℕ}
    (hcopy : run.nwk.overheard packet = some (i, n)) (hj : j ≠ i) :
    run.hear packet j = run.heard j := by
  rw [hear, hcopy]
  exact update_of_ne hj _ _

theorem bitsRight_acked {i n : ℕ} (hright : run.AllRight)
    (hcopy : run.nwk.overheard packet = some (i, n))
    (hi : i < nwkBrrTableSize) (hused : run.nwk.brrt.used i = true) :
    BitsRight (relayRows run.nwk.mesh.zg) (run.nwk.ackedEnt i n) (run.hear packet i) := by
  rw [hear_self hcopy]
  exact (hright i hi hused).insert_heard n

theorem allRight_receive (hright : run.AllRight) (hsame : SameNeighbors run.nwk after)
    (hcase : NwkMain.OverheardCase run.nwk packet after.brrt) :
    AllRight (run.follow (run.hear packet) after) := by
  apply allRight_follow hsame
  generalize after.brrt = array at hcase
  intro i hi hused
  cases hcase with
  | none hnone =>
    rw [hear_of_none hnone]
    exact hright i hi hused
  | marked j n hcopy hj husedj _ _ =>
    by_cases hij : i = j
    · subst hij
      have hent : (run.nwk.brrt.setEnt i (run.nwk.ackedEnt i n)).ents i =
          run.nwk.ackedEnt i n := update_self _ _ _
      rw [hent]
      exact bitsRight_acked hright hcopy hj husedj
    · have hent : (run.nwk.brrt.setEnt j (run.nwk.ackedEnt j n)).ents i =
          run.nwk.brrt.ents i := update_of_ne hij _ _
      rw [hent, hear_of_ne hcopy hij]
      exact hright i hi hused
  | ended j n hcopy hj husedj _ _ =>
    by_cases hij : i = j
    · subst hij
      rw [NwkArray.putEnt] at hused
      simp at hused
    · have hent : ((run.nwk.brrt.setEnt j (run.nwk.ackedEnt j n)).putEnt j).ents i =
          run.nwk.brrt.ents i := update_of_ne hij _ _
      have husedi : ((run.nwk.brrt.setEnt j (run.nwk.ackedEnt j n)).putEnt j).used i =
          run.nwk.brrt.used i := update_of_ne hij _ _
      rw [hent, hear_of_ne hcopy hij]
      exact hright i hi (husedi.symm.trans hused)

theorem sound_receive_iff (hsound : Sound run)
    (hright : run.AllRight) (hsame : SameNeighbors run.nwk after)
    (hcase : NwkMain.OverheardCase run.nwk packet after.brrt) :
    Sound (run.follow (run.hear packet) after) ↔
      ∀ i n, run.nwk.overheard packet = some (i, n) →
        (run.nwk.ackedEnt i n).retries < nwkMaxBroadcastRetries →
        run.nwk.AckedByAll i n → run.nwk.Balanced (run.nwk.ackedEnt i n) := by
  generalize hbrrt : after.brrt = array at hcase
  cases hcase with
  | none hnone =>
    have hkept : Sound (run.follow (run.hear packet) after) ↔ Sound run :=
      sound_follow_of_used fun i hused => by rwa [hbrrt]
    refine iff_of_true (hkept.mpr hsound) ?_
    intro i n hcopy
    rw [hnone] at hcopy
    contradiction
  | marked i n hcopy hi hused hn hnot =>
    have hkept : Sound (run.follow (run.hear packet) after) ↔ Sound run :=
      sound_follow_of_used fun i hused => by
        rw [hbrrt]
        exact hused
    refine iff_of_true (hkept.mpr hsound) ?_
    intro j k hcopy' _ hall
    obtain ⟨rfl, rfl⟩ := some_pair_inj (hcopy.symm.trans hcopy')
    exact absurd hall hnot
  | ended i n hcopy hi hused hn hall =>
    rw [sound_follow_of_putEnt hsame hsound hi hused rfl hbrrt
      (bitsRight_acked hright hcopy hi hused), NwkMain.AllAcked.subset_iff hall]
    constructor
    · intro hbalanced j k hcopy' hfew _
      obtain ⟨rfl, rfl⟩ := some_pair_inj (hcopy.symm.trans hcopy')
      exact hbalanced hfew
    · intro hcounts hfew
      exact hcounts i n hcopy hfew hall

/-! ### New broadcasts -/

theorem forward_used (hentries : NwkMain.ForwardEntries run.nwk param after) (i : ℕ)
    (hused : run.nwk.brrt.used i = true) : after.brrt.used i = true := by
  cases hentries with
  | same hbrrt => rwa [hbrrt]
  | added j ent hfree hbrrt _ _ _ _ =>
    rw [hbrrt, NwkArray.takeEnt]
    dsimp only
    by_cases hi : i = j
    · rw [hi, update_self]
    · rwa [update_of_ne hi]

theorem allRight_forward (hright : run.AllRight) (hsame : SameNeighbors run.nwk after)
    (hentries : NwkMain.ForwardEntries run.nwk param after) :
    AllRight (run.follow (run.renew after) after) := by
  apply allRight_follow hsame
  intro i hi hused
  have hold : run.nwk.brrt.used i = true → run.renew after i = run.heard i := by
    intro husedi
    rw [renew, husedi]
    rfl
  cases hentries with
  | same hbrrt =>
    rw [hbrrt] at hused ⊢
    rw [hold hused]
    exact hright i hi hused
  | added j ent hfree hbrrt _ _ hacks hiter =>
    obtain ⟨-, hunused⟩ := NwkArray.freeEnt_eq_some hfree
    by_cases hij : i = j
    · subst hij
      have hent : after.brrt.ents i = ent := by
        rw [hbrrt]
        exact update_self _ _ _
      have hnew : run.renew after i = ∅ := by
        rw [renew, hunused, hused]
        rfl
      rw [hent, hnew]
      refine ⟨?_, ?_⟩
      · intro n _
        rw [hacks]
      · intro n hn
        rw [hiter] at hn
        rw [← hsame.relays]
        exact (nextZeChildrenI_eq_some.mp hn).2.1.not_mem_relayRows
    · have hent : after.brrt.ents i = run.nwk.brrt.ents i := by
        rw [hbrrt]
        exact update_of_ne hij _ _
      have husedi : run.nwk.brrt.used i = true := by
        rw [hbrrt] at hused
        exact (update_of_ne hij _ _).symm.trans hused
      rw [hent, hold husedi]
      exact hright i hi husedi

/-! ### Transmissions -/

theorem bitsRight_picked {picked : NwkMain} {pick : Option (ℕ × Option ℕ)}
    (hright : run.AllRight) (hpicked : NwkMain.Picked run.nwk picked pick)
    (hi : i < nwkBrrTableSize) (hused : run.nwk.brrt.used i = true) :
    BitsRight (relayRows run.nwk.mesh.zg) (picked.brrt.ents i) (run.heard i) := by
  rcases hpicked.passes.moved i with hsame | ⟨-, -, n, -, hpassed⟩
  · rw [hsame]
    exact hright i hi hused
  · rw [hpassed]
    exact (hright i hi hused).passedOver n

theorem bitsRight_counted {picked : NwkMain} {child : Option ℕ}
    {ent : NwkBroadcastRetransmit}
    (hright : run.AllRight)
    (hpicked : NwkMain.Picked run.nwk picked (some (i, child)))
    (hcount : picked.countTransmission (picked.brrt.ents i) child = some ent) :
    BitsRight (relayRows run.nwk.mesh.zg) ent (run.heard i) := by
  obtain ⟨hi, hused, hchild⟩ := hpicked.found i child rfl
  have hbits := bitsRight_picked hright hpicked hi hused
  rw [← hpicked.passes.mesh_eq] at hbits ⊢
  exact hbits.counted hchild hcount

theorem allRight_transmit {result : NwkMain × List NwkOutput}
    (hright : run.AllRight) (hsame : SameNeighbors run.nwk result.1)
    (hcase : NwkMain.TransmitCase run.nwk param result) :
    AllRight (run.follow run.heard result.1) := by
  apply allRight_follow hsame
  intro i hi hused
  cases hcase with
  | idle next hpick =>
    have hpicked := picked_of_pickBroadcast hpick
    rw [hpicked.passes.used_eq] at hused
    exact bitsRight_picked hright hpicked hi hused
  | waits next j child hpick _ =>
    have hpicked := picked_of_pickBroadcast hpick
    rw [hpicked.passes.used_eq] at hused
    exact bitsRight_picked hright hpicked hi hused
  | copied next after j child ent hpick _ hcount _ hbrrt _ =>
    have hpicked := picked_of_pickBroadcast hpick
    dsimp only at hused ⊢
    rw [hbrrt] at hused ⊢
    by_cases hij : i = j
    · subst hij
      have hent : (next.brrt.setEnt i ent).ents i = ent := update_self _ _ _
      rw [hent]
      exact bitsRight_counted hright hpicked hcount
    · have hent : (next.brrt.setEnt j ent).ents i = next.brrt.ents i :=
        update_of_ne hij _ _
      rw [hent]
      exact bitsRight_picked hright hpicked hi (hpicked.passes.used_eq ▸ hused)
  | last next after j child ent hpick _ hcount _ hbrrt _ =>
    have hpicked := picked_of_pickBroadcast hpick
    dsimp only at hused ⊢
    rw [hbrrt] at hused ⊢
    by_cases hij : i = j
    · subst hij
      rw [NwkArray.putEnt] at hused
      simp at hused
    · have hent : ((next.brrt.setEnt j ent).putEnt j).ents i =
          next.brrt.ents i := update_of_ne hij _ _
      have husedi : ((next.brrt.setEnt j ent).putEnt j).used i =
          next.brrt.used i := update_of_ne hij _ _
      rw [hent]
      exact bitsRight_picked hright hpicked hi
        (hpicked.passes.used_eq ▸ (husedi.symm.trans hused))

theorem sound_transmit_iff {result : NwkMain × List NwkOutput}
    (hsound : Sound run) (hright : run.AllRight)
    (hsame : SameNeighbors run.nwk result.1)
    (hcase : NwkMain.TransmitCase run.nwk param result) :
    Sound (run.follow run.heard result.1) ↔ (param ≠ 0 → ∀ next i child,
        run.nwk.pickBroadcast = (next, some (i, child)) →
        ∀ ent, next.countTransmission (next.brrt.ents i) child = some ent →
          ent.neighborTableIterator = none →
          ent.retries < nwkMaxBroadcastRetries →
          run.nwk.AllAcked ent (NwkMain.scanIndex (next.brrt.ents i) i child) →
            Zboss.relaysExcept run.nwk.mesh.zg ent.srcAddr ⊆ ent.passiveAck) := by
  have hkept : (∀ i, run.nwk.brrt.used i = true → result.1.brrt.used i = true) →
        Sound (run.follow run.heard result.1) := by
    intro hused
    exact (sound_follow_of_used hused).mpr hsound
  have hacked : ∀ {next : NwkMain} {ent : NwkBroadcastRetransmit} {acks : ℕ},
      next.mesh = run.nwk.mesh → (next.AllAcked ent acks ↔ run.nwk.AllAcked ent acks) :=
    fun hmesh => allAcked_congr (by rw [hmesh]) (by rw [hmesh])
  cases hcase with
  | idle next hpick =>
    have hpicked := picked_of_pickBroadcast hpick
    refine iff_of_true (hkept ?_) ?_
    · intro i hused
      rwa [hpicked.passes.used_eq]
    · intro _ next' i child hpick'
      rw [hpick] at hpick'
      cases hpick'
  | waits next i child hpick hparam =>
    have hpicked := picked_of_pickBroadcast hpick
    refine iff_of_true (hkept ?_) (absurd hparam)
    intro i hused
    rwa [hpicked.passes.used_eq]
  | copied next after i child ent hpick _ hcount hnotLast hbrrt _ =>
    have hpicked := picked_of_pickBroadcast hpick
    refine iff_of_true (hkept ?_) ?_
    · intro j hused
      dsimp only
      rw [hbrrt, NwkArray.setEnt]
      rwa [hpicked.passes.used_eq]
    · intro _ next' i' child' hpick' ent' hcount' hiter _ hall
      rw [hpick] at hpick'
      cases hpick'
      obtain rfl := some.inj (hcount.symm.trans hcount')
      have hall' := (hacked hpicked.passes.mesh_eq).mpr hall
      exact absurd ⟨hiter, Or.inr hall'⟩ hnotLast
  | last next after i child ent hpick hparam hcount hlast hbrrt _ =>
    have hpicked := picked_of_pickBroadcast hpick
    obtain ⟨hi, hused, -⟩ := hpicked.found i child rfl
    obtain ⟨hiter, hends⟩ := hlast
    rw [sound_follow_of_putEnt hsame hsound hi hused hpicked.passes.used_eq
      hbrrt (bitsRight_counted hright hpicked hcount)]
    constructor
    · intro hacks _ next' i' child' hpick' ent' hcount' _ hfew _
      rw [hpick] at hpick'
      cases hpick'
      obtain rfl := some.inj (hcount.symm.trans hcount')
      exact hacks hfew
    · intro hcounts hfew
      rcases hends with hmany | hall
      · omega
      · have hall' := (hacked hpicked.passes.mesh_eq).mp hall
        exact hcounts hparam next i child hpick ent hcount hiter hfew hall'

theorem sound_start (nwk : NwkMain) : Sound (start nwk) := by
  intro stop hstop
  exact absurd hstop List.not_mem_nil

theorem allRight_start (nwk : NwkMain) : AllRight (start nwk) := by
  intro i _ hused
  have hunused : (start nwk).nwk.brrt.used i = false := rfl
  rw [hunused] at hused
  contradiction

theorem forall_step_iff {condition : Prop}
    (hiff : ∀ next, run.step event = some next → (Sound next ↔ condition)) :
    (∀ next, run.step event = some next → Sound next) ↔
      ((run.step event).isSome → condition) := by
  generalize run.step event = result at hiff
  cases result with
  | none => simp
  | some next =>
    have hnext := hiff next rfl
    simp [hnext]

theorem sound_step_iff (hsound : Sound run) (hright : run.AllRight)
    (hkeeps : KeepsNeighbors run event) :
    (∀ next, run.step event = some next → Sound next) ↔
      CountsRelays run event := by
  apply forall_step_iff
  intro next hstep
  have hsame := hkeeps next hstep
  cases event with
  | receive param packet lqi unsecure =>
    obtain ⟨result, hindication, rfl⟩ := map_eq_some_iff.mp hstep
    exact sound_receive_iff hsound hright hsame (indication_overheard hindication)
  | forward param =>
    obtain ⟨result, hforward, rfl⟩ := map_eq_some_iff.mp hstep
    refine iff_of_true ?_ trivial
    exact (sound_follow_of_used (forward_used (zbNwkForward_entries hforward))).mpr hsound
  | transmit param =>
    obtain ⟨result, htransmit, rfl⟩ := map_eq_some_iff.mp hstep
    exact sound_transmit_iff hsound hright hsame (nwkBroadcastTransmition_cases htransmit)
  | environment changed =>
    obtain rfl := some.inj hstep
    have hkept : Sound (run.follow run.heard
        { changed with brrt := run.nwk.brrt }) ↔ Sound run :=
      sound_follow_of_used fun _ hused => hused
    exact iff_of_true (hkept.mpr hsound) trivial

theorem allRight_step (hright : run.AllRight) (hkeeps : KeepsNeighbors run event)
    (hstep : run.step event = some next) : next.AllRight := by
  have hsame := hkeeps next hstep
  cases event with
  | receive param packet lqi unsecure =>
    obtain ⟨result, hindication, rfl⟩ := map_eq_some_iff.mp hstep
    exact allRight_receive hright hsame (indication_overheard hindication)
  | forward param =>
    obtain ⟨result, hforward, rfl⟩ := map_eq_some_iff.mp hstep
    exact allRight_forward hright hsame (zbNwkForward_entries hforward)
  | transmit param =>
    obtain ⟨result, htransmit, rfl⟩ := map_eq_some_iff.mp hstep
    exact allRight_transmit hright hsame (nwkBroadcastTransmition_cases htransmit)
  | environment changed =>
    obtain rfl := some.inj hstep
    exact allRight_follow hsame hright

/-- As long as the neighbor table stays the same, no broadcast is given up
before all routers have been overheard to relay it, exactly when each count
which ends a broadcast is balanced, and each index which does comes with all the
bits. -/
theorem everyState_passiveSound_iff (nwk : NwkMain) (events : List PassiveEvent)
    (hkeeps : AlongRun step KeepsNeighbors (start nwk) events) :
    EveryState step Sound (start nwk) events ↔
      AlongRun step CountsRelays (start nwk) events := by
  have hexact : ∀ run event, Sound run → AllRight run → KeepsNeighbors run event →
      ((∀ next, run.step event = some next → Sound next) ↔
        CountsRelays run event) :=
    fun _ _ hsound hright hkeeps => sound_step_iff hsound hright hkeeps
  exact everyState_iff_alongRun_of_admissible hexact
    (fun _ _ _ _ hright hkeeps _ hstep => allRight_step hright hkeeps hstep)
    (sound_start nwk) (allRight_start nwk) hkeeps

end PassiveRun

def parentNwk : NwkMain :=
  { broadcastingNwk with
    mesh :=
      { activeRouter 0 with
        zg :=
          { Globals.init .zero with
            addr :=
              { AddrGlobals.zeroed with
                addrMap := fun ref =>
                  { AddrGlobals.zeroed.addrMap ref with
                    addr := ref + 2
                    used := ref < 2
                    lockCnt := 1 }
                shortSorted := id
                nElements := 2
                nSortedElements := 2 }
            neighbor :=
              { zbNwkNeighborInit with
                baseNeighbor := fun n =>
                  { NeighborTblEnt.zero with
                    addrRef := n
                    deviceType := if n = 0 then .router else .endDevice
                    used := n < 2
                    relationship := if n = 0 then .sibling else .child }
                addrToNeighbor := id
                baseNeighborUsed := 2 } } } }

/-- The child has sent a broadcast to all routers. -/
def fromChildNwk : NwkMain :=
  { parentNwk with
    packets := fun _ =>
      { broadcastingNwk.packets 1 with
        srcAddr := 3
        dstAddr := nwkBroadcastRouterCoordinator } }

def relayedByTwo : NwkPacket :=
  { broadcastingNwk.packets 1 with macSource := some 2 }

namespace PassiveRun

def childEvents : List PassiveEvent := [.forward 1, .transmit 2]

def relayEvents : List PassiveEvent :=
  [.forward 1, .transmit 2, .receive 3 relayedByTwo 7 fun _ => none]

theorem keepsNeighbors_transmit (run : PassiveRun) (param : ℕ) :
    KeepsNeighbors run (.transmit param) := by
  intro next hstep
  obtain ⟨result, htransmit, rfl⟩ := map_eq_some_iff.mp hstep
  have hmesh := (nwkBroadcastTransmition_cases htransmit).mesh_eq
  refine ⟨?_, ?_, ?_⟩
  · exact congrArg MeshRouter.address hmesh
  · exact congrArg (fun mesh => relayRows mesh.zg) hmesh
  · intro n
    exact congrArg (fun mesh => rowAddress mesh.zg n) hmesh

theorem keepsNeighbors_forward :
    KeepsNeighbors (start parentNwk) (.forward 1) := by
  intro next hstep
  obtain rfl := some.inj hstep
  exact ⟨rfl, rfl, fun _ => rfl⟩

theorem keepsNeighbors_childEvents :
    AlongRun step KeepsNeighbors (start fromChildNwk) childEvents := by
  refine ⟨fun next hstep => ?_, fun _ _ =>
    ⟨keepsNeighbors_transmit _ 2, fun _ _ => trivial⟩⟩
  obtain rfl := some.inj hstep
  exact ⟨rfl, rfl, fun _ => rfl⟩

theorem keepsNeighbors_relayEvents :
    AlongRun step KeepsNeighbors (start parentNwk) relayEvents := by
  refine ⟨keepsNeighbors_forward, ?_⟩
  intro sent hsent
  refine ⟨keepsNeighbors_transmit sent 2, ?_⟩
  intro waiting hwaiting
  obtain rfl := some.inj hsent
  obtain rfl := some.inj hwaiting
  refine ⟨?_, fun _ _ => trivial⟩
  intro next hstep
  obtain rfl := some.inj hstep
  refine ⟨rfl, rfl, ?_⟩
  intro n
  change (update parentNwk.mesh.zg.addr.addrMap 0
    { parentNwk.mesh.zg.addr.addrMap 0 with clock := true } n).addr =
      (parentNwk.mesh.zg.addr.addrMap n).addr
  by_cases hn : n = 0
  · rw [hn, update_self]
  · rw [update_of_ne hn]

/-- Nothing is sent again after router 2 has relayed the broadcast. -/
theorem everyState_passiveSound_relay :
    (∃ last, run step (start parentNwk) relayEvents = some last ∧
        last.stops = [⟨{0}, {0}⟩]) ∧
      (EveryState step Sound (start parentNwk) relayEvents ↔
        AlongRun step CountsRelays (start parentNwk) relayEvents) := by
  refine ⟨?_, everyState_passiveSound_iff parentNwk relayEvents
    keepsNeighbors_relayEvents⟩
  have hstops : (run step (start parentNwk) relayEvents).map stops =
      some [⟨{0}, {0}⟩] := by
    decide +kernel
  exact map_eq_some_iff.mp hstops

/-- The first transmission is the last one, as if router 2 were the source. -/
theorem not_everyState_passiveSound_child :
    ¬ ∀ nwk events, AlongRun step KeepsNeighbors (start nwk) events →
      EveryState step Sound (start nwk) events := by
  intro hsound
  have hevery := hsound fromChildNwk childEvents keepsNeighbors_childEvents
  have hstops : (run step (start fromChildNwk) childEvents).map stops =
      some [⟨{0}, ∅⟩] := by
    decide +kernel
  obtain ⟨last, hrun, hlast⟩ := map_eq_some_iff.mp hstops
  have hsubset := hevery.last hrun ⟨{0}, ∅⟩ (by rw [hlast]; simp)
  exact absurd hsubset (by decide)

end PassiveRun

end Zboss
