import Zboss.BroadcastTables

/-!
# Entries of the broadcast retransmission table

What one call does to the entries: which one `nwk_broadcast_transmition` serves
and how, and where the bits of passive acknowledgements come from.
-/

namespace Zboss

open Function Option List

namespace NwkMain

variable {nwk next : NwkMain} {i j n param : ℕ}

/-- What `zb_nwk_neighbor_next_ze_children_i` looks for. -/
structure EligibleChild (zg : Globals) (addr n : ℕ) : Prop where
  lt : n < zg.neighbor.baseNeighborUsed
  used : (zg.neighbor.baseNeighbor n).used = true
  relationship : (zg.neighbor.baseNeighbor n).relationship = .child ∨
    (zg.neighbor.baseNeighbor n).relationship = .unauthenticatedChild
  deviceType : (zg.neighbor.baseNeighbor n).deviceType = .endDevice
  addressed : addr = nwkBroadcastAllDevices ∨ addr = nwkBroadcastRxOnWhenIdle ∧
      (zg.neighbor.baseNeighbor n).rxOnWhenIdle = true

variable {zg : Globals} {indices : List ℕ} {result : NwkMain × List NwkOutput}
  {packet : NwkPacket}

theorem eligibleChild_iff {addr n : ℕ} :
    EligibleChild zg addr n ↔ n < zg.neighbor.baseNeighborUsed ∧
      ((zg.neighbor.baseNeighbor n).used &&
        ((zg.neighbor.baseNeighbor n).relationship == .child ||
          (zg.neighbor.baseNeighbor n).relationship == .unauthenticatedChild) &&
        (zg.neighbor.baseNeighbor n).deviceType == .endDevice &&
        (addr == nwkBroadcastAllDevices || addr == nwkBroadcastRxOnWhenIdle &&
            (zg.neighbor.baseNeighbor n).rxOnWhenIdle)) = true := by
  simp only [Bool.and_eq_true, Bool.or_eq_true, beq_iff_eq]
  constructor
  · rintro ⟨hlt, hused, hrelationship, htype, haddressed⟩
    exact ⟨hlt, ⟨⟨hused, hrelationship⟩, htype⟩, haddressed⟩
  · rintro ⟨hlt, ⟨⟨hused, hrelationship⟩, htype⟩, haddressed⟩
    exact ⟨hlt, hused, hrelationship, htype, haddressed⟩

theorem nextZeChildrenI_eq_some {addr : ℕ} :
    nextZeChildrenI zg addr i = some n ↔ i ≤ n ∧ EligibleChild zg addr n ∧
        ∀ k, i ≤ k → k < n → ¬ EligibleChild zg addr k := by
  have hrange : ∀ k, i ≤ k → (k < i + (zg.neighbor.baseNeighborUsed - i) ↔
      k < zg.neighbor.baseNeighborUsed) := by
    intro k hk
    omega
  unfold nextZeChildrenI
  simp only [eligibleChild_iff]
  rw [List.find?_range'_eq_some, mem_range'_1]
  constructor
  · rintro ⟨hmatch, ⟨hle, hlt⟩, hbefore⟩
    refine ⟨hle, ⟨(hrange n hle).mp hlt, hmatch⟩, ?_⟩
    rintro k hk hkn ⟨-, hmatchk⟩
    have hother := hbefore k hk hkn
    rw [hmatchk] at hother
    contradiction
  · rintro ⟨hle, ⟨hlt, hmatch⟩, hbefore⟩
    refine ⟨hmatch, ⟨hle, (hrange n hle).mpr hlt⟩, ?_⟩
    intro k hk hkn
    rw [Bool.not_eq_true', ← Bool.not_eq_true]
    intro hmatchk
    exact hbefore k hk hkn ⟨hkn.trans hlt, hmatchk⟩

theorem nextZeChildrenI_eq_none {addr : ℕ} : nextZeChildrenI zg addr i = none ↔
      ∀ k, i ≤ k → ¬ EligibleChild zg addr k := by
  unfold nextZeChildrenI
  rw [List.find?_eq_none]
  simp only [mem_range'_1]
  constructor
  · intro hnone k hk heligible
    have hmatch := eligibleChild_iff.mp heligible
    exact hnone k (by omega) hmatch.2
  · intro hnone k hk hmatch
    exact hnone k hk.1 (eligibleChild_iff.mpr ⟨by omega, hmatch⟩)

/-! ## Which entry is served -/

def AtSource (nwk : NwkMain) (ent : NwkBroadcastRetransmit) (n : ℕ) : Prop :=
  ent.neighborTableIterator = some n ∧
    rowAddress nwk.mesh.zg n = (nwk.packets ent.buf).srcAddr

def passedOver (nwk : NwkMain) (ent : NwkBroadcastRetransmit) (n : ℕ) :
    NwkBroadcastRetransmit :=
  { ent with
    neighborTableIterator := nextZeChildrenI nwk.mesh.zg ent.dstAddr (n + 1) }

structure PassesSources (nwk next : NwkMain) (indices : List ℕ) : Prop where
  rewritten : EntriesRewritten nwk next
  moved : ∀ i, next.brrt.ents i = nwk.brrt.ents i ∨ i ∈ indices ∧ nwk.brrt.used i = true ∧
      ∃ n, nwk.AtSource (nwk.brrt.ents i) n ∧
        next.brrt.ents i = nwk.passedOver (nwk.brrt.ents i) n

theorem passesSources_refl (nwk : NwkMain) (indices : List ℕ) :
    PassesSources nwk nwk indices :=
  ⟨⟨nwk.brrt.ents, rfl⟩, fun _ => .inl rfl⟩

theorem PassesSources.cons (hpasses : PassesSources nwk next indices) (j : ℕ) :
    PassesSources nwk next (j :: indices) := by
  refine ⟨hpasses.rewritten, ?_⟩
  intro i
  rcases hpasses.moved i with hsame | ⟨hi, hmoved⟩
  · exact .inl hsame
  · exact .inr ⟨mem_cons_of_mem j hi, hmoved⟩

def passSource (nwk : NwkMain) (j n : ℕ) : NwkMain :=
  { nwk with
    brrt := nwk.brrt.setEnt j (nwk.passedOver (nwk.brrt.ents j) n) }

theorem passSource_self (nwk : NwkMain) (j n : ℕ) :
    (nwk.passSource j n).brrt.ents j = nwk.passedOver (nwk.brrt.ents j) n :=
  update_self _ _ _

theorem passSource_of_ne (nwk : NwkMain) {i j : ℕ} (n : ℕ) (hi : i ≠ j) :
    (nwk.passSource j n).brrt.ents i = nwk.brrt.ents i :=
  update_of_ne hi _ _

theorem PassesSources.cons_moved (hj : j ∉ indices) (hused : nwk.brrt.used j = true)
    (hsource : nwk.AtSource (nwk.brrt.ents j) n)
    (hpasses : PassesSources (nwk.passSource j n) next indices) :
    PassesSources nwk next (j :: indices) := by
  obtain ⟨⟨ents, rfl⟩, hmoved⟩ := hpasses
  refine ⟨⟨ents, rfl⟩, ?_⟩
  intro i
  by_cases hi : i = j
  · subst hi
    rcases hmoved i with hsame | ⟨hmem, -⟩
    · exact .inr ⟨mem_cons_self, hused, n, hsource, hsame.trans (nwk.passSource_self i n)⟩
    · exact absurd hmem hj
  · have hpassed := hmoved i
    rw [nwk.passSource_of_ne n hi] at hpassed
    rcases hpassed with hsame | ⟨hmem, hmoved⟩
    · exact .inl hsame
    · exact .inr ⟨mem_cons_of_mem j hmem, hmoved⟩

structure UnicastPick (nwk next : NwkMain) (indices : List ℕ) (pick : Option (ℕ × ℕ)) :
    Prop where
  passes : PassesSources nwk next indices
  found : ∀ i n, pick = some (i, n) → i ∈ indices ∧ nwk.brrt.used i = true ∧
      next.brrt.ents i = nwk.brrt.ents i ∧
      (nwk.brrt.ents i).neighborTableIterator = some n ∧
      ¬ nwk.AtSource (nwk.brrt.ents i) n
  absent : pick = none → ∀ i ∈ indices, nwk.brrt.used i = true →
    ∀ n, (nwk.brrt.ents i).neighborTableIterator = some n →
      nwk.AtSource (nwk.brrt.ents i) n ∧
        next.brrt.ents i = nwk.passedOver (nwk.brrt.ents i) n

theorem pickUnicast_pick (nwk : NwkMain) (indices : List ℕ) (hnodup : indices.Nodup) :
    UnicastPick nwk (nwk.pickUnicast indices).1 indices (nwk.pickUnicast indices).2 := by
  induction indices generalizing nwk with
  | nil => exact ⟨passesSources_refl nwk [], by simp [pickUnicast], by simp⟩
  | cons j rest ih =>
    obtain ⟨hj, hrest⟩ := nodup_cons.mp hnodup
    have hskip : (∀ n, nwk.brrt.used j = true →
          (nwk.brrt.ents j).neighborTableIterator ≠ some n) →
        UnicastPick nwk (nwk.pickUnicast rest).1 (j :: rest) (nwk.pickUnicast rest).2 := by
      intro hnone
      obtain ⟨hpasses, hfound, habsent⟩ := ih nwk hrest
      refine ⟨hpasses.cons j, ?_, ?_⟩
      · intro i n hpick
        obtain ⟨hi, hpicked⟩ := hfound i n hpick
        exact ⟨mem_cons_of_mem j hi, hpicked⟩
      · intro hpick i hi hused n hiter
        rcases mem_cons.mp hi with rfl | hi
        · exact absurd hiter (hnone n hused)
        · exact habsent hpick i hi hused n hiter
    rw [pickUnicast]
    dsimp only
    split
    · rename_i n hused hiter
      split
      · rename_i hrow
        have hsource : nwk.AtSource (nwk.brrt.ents j) n := ⟨hiter, hrow⟩
        obtain ⟨hpasses, hfound, habsent⟩ := ih (nwk.passSource j n) hrest
        have hne : ∀ i ∈ rest, i ≠ j := by
          rintro i hi rfl
          exact hj hi
        refine ⟨hpasses.cons_moved hj hused hsource, ?_, ?_⟩
        · intro i k hpick
          obtain ⟨hi, husedi, hent⟩ := hfound i k hpick
          rw [nwk.passSource_of_ne n (hne i hi)] at hent
          exact ⟨mem_cons_of_mem j hi, husedi, hent⟩
        · intro hpick i hi husedi k hiteri
          rcases mem_cons.mp hi with rfl | hi
          · obtain rfl := some.inj (hiter.symm.trans hiteri)
            refine ⟨hsource, ?_⟩
            rcases hpasses.moved i with hsame | ⟨hmem, -⟩
            · exact hsame.trans (nwk.passSource_self i n)
            · exact absurd hmem hj
          · have hmoved := habsent hpick i hi husedi k
            rw [nwk.passSource_of_ne n (hne i hi)] at hmoved
            exact hmoved hiteri
      · rename_i hrow
        refine ⟨passesSources_refl nwk _, ?_, by simp⟩
        intro i k hpick
        obtain ⟨rfl, rfl⟩ := some_pair_inj hpick
        exact ⟨mem_cons_self, hused, rfl, hiter, fun h => hrow h.2⟩
    · rename_i hother
      exact hskip fun n hused hiter => hother n hused hiter

def AllPassed (nwk next : NwkMain) : Prop :=
  ∀ i < nwkBrrTableSize, nwk.brrt.used i = true →
    ∀ n, (nwk.brrt.ents i).neighborTableIterator = some n →
      nwk.AtSource (nwk.brrt.ents i) n ∧
        next.brrt.ents i = nwk.passedOver (nwk.brrt.ents i) n

inductive PickCase (nwk : NwkMain) : NwkMain × Option (ℕ × Option ℕ) → Prop
  | first (i : ℕ) (hi : i < nwkBrrTableSize) (hused : nwk.brrt.used i = true)
      (hretries : (nwk.brrt.ents i).retries = 0) :
      PickCase nwk (nwk, some (i, none))
  | child (next : NwkMain) (i n : ℕ) (hi : i < nwkBrrTableSize)
      (hused : nwk.brrt.used i = true)
      (hretries : ∀ j < nwkBrrTableSize, nwk.brrt.used j = true →
        (nwk.brrt.ents j).retries ≠ 0)
      (hpasses : PassesSources nwk next (List.range nwkBrrTableSize))
      (hent : next.brrt.ents i = nwk.brrt.ents i)
      (hiter : (nwk.brrt.ents i).neighborTableIterator = some n)
      (hother : ¬ nwk.AtSource (nwk.brrt.ents i) n) :
      PickCase nwk (next, some (i, some n))
  | due (next : NwkMain) (i : ℕ) (hi : i < nwkBrrTableSize)
      (hused : nwk.brrt.used i = true)
      (hretries : ∀ j < nwkBrrTableSize, nwk.brrt.used j = true →
        (nwk.brrt.ents j).retries ≠ 0)
      (hpasses : PassesSources nwk next (List.range nwkBrrTableSize))
      (hall : AllPassed nwk next)
      (hdue : zbTimeGe nwk.timer (nwk.brrt.ents i).nextRetransmit = true) :
      PickCase nwk (next, some (i, none))
  | idle (next : NwkMain) (hretries : ∀ j < nwkBrrTableSize, nwk.brrt.used j = true →
        (nwk.brrt.ents j).retries ≠ 0)
      (hpasses : PassesSources nwk next (List.range nwkBrrTableSize))
      (hall : AllPassed nwk next)
      (hnotDue : ∀ j < nwkBrrTableSize, nwk.brrt.used j = true →
        zbTimeGe nwk.timer (nwk.brrt.ents j).nextRetransmit = false) :
      PickCase nwk (next, none)

theorem PassesSources.nextRetransmit_eq
    (hpasses : PassesSources nwk next indices) (i : ℕ) :
    (next.brrt.ents i).nextRetransmit = (nwk.brrt.ents i).nextRetransmit := by
  rcases hpasses.moved i with hsame | ⟨-, -, n, -, hpassed⟩
  · rw [hsame]
  · rw [hpassed]
    rfl

theorem PassesSources.used_eq (hpasses : PassesSources nwk next indices) :
    next.brrt.used = nwk.brrt.used := by
  obtain ⟨⟨ents, rfl⟩, -⟩ := hpasses
  rfl

theorem pickBroadcast_case (nwk : NwkMain) :
    PickCase nwk nwk.pickBroadcast := by
  unfold pickBroadcast
  split
  · rename_i i hfirst
    obtain ⟨hi, hused, hretries⟩ := NwkArray.findEnt_eq_some hfirst
    exact .first i hi hused (beq_iff_eq.mp hretries)
  · rename_i hnone
    have hretries : ∀ j < nwkBrrTableSize, nwk.brrt.used j = true →
        (nwk.brrt.ents j).retries ≠ 0 := by
      intro j hj hused hzero
      exact absurd (beq_iff_eq.mpr hzero) (Bool.eq_false_iff.mp
        (NwkArray.findEnt_eq_none.mp hnone j hj hused))
    obtain ⟨hpasses, hfound, habsent⟩ :=
      pickUnicast_pick nwk (List.range nwkBrrTableSize) nodup_range
    split
    · rename_i next i n hunicast
      rw [hunicast] at hpasses hfound
      obtain ⟨hi, hused, hent, hiter, hother⟩ := hfound i n rfl
      exact .child next i n (mem_range.mp hi) hused hretries hpasses hent hiter hother
    · rename_i next hunicast
      rw [hunicast] at hpasses habsent
      have hall : AllPassed nwk next := by
        intro i hi hused n hiter
        exact habsent rfl i (mem_range.mpr hi) hused n hiter
      have htimer : next.timer = nwk.timer := by
        obtain ⟨⟨ents, rfl⟩, -⟩ := hpasses
        rfl
      dsimp only at hpasses ⊢
      rw [htimer]
      cases hdue : next.brrt.findEnt fun ent => zbTimeGe nwk.timer ent.nextRetransmit with
      | some i =>
        obtain ⟨hi, hused, htime⟩ := NwkArray.findEnt_eq_some hdue
        rw [hpasses.used_eq] at hused
        rw [hpasses.nextRetransmit_eq] at htime
        exact .due next i hi hused hretries hpasses hall htime
      | none =>
        refine .idle next hretries hpasses hall ?_
        intro j hj hused
        rw [← hpasses.used_eq] at hused
        rw [← hpasses.nextRetransmit_eq]
        exact NwkArray.findEnt_eq_none.mp hdue j hj hused

structure Picked (nwk next : NwkMain) (pick : Option (ℕ × Option ℕ)) : Prop where
  passes : PassesSources nwk next (List.range nwkBrrTableSize)
  found : ∀ i child, pick = some (i, child) →
    i < nwkBrrTableSize ∧ nwk.brrt.used i = true ∧ ∀ n, child = some n →
        (next.brrt.ents i).neighborTableIterator = some n

theorem picked_of_pickBroadcast
    {pick : Option (ℕ × Option ℕ)} (hpick : nwk.pickBroadcast = (next, pick)) :
    Picked nwk next pick := by
  have hcase := nwk.pickBroadcast_case
  rw [hpick] at hcase
  cases hcase with
  | first i hi hused _ =>
    refine ⟨passesSources_refl nwk _, ?_⟩
    intro j child hj
    obtain ⟨rfl, rfl⟩ := some_pair_inj hj
    exact ⟨hi, hused, nofun⟩
  | child _ i n hi hused _ hpasses hent hiter _ =>
    refine ⟨hpasses, ?_⟩
    intro j child hj
    obtain ⟨rfl, rfl⟩ := some_pair_inj hj
    refine ⟨hi, hused, ?_⟩
    intro k hk
    rw [hent, hiter, hk]
  | due _ i hi hused _ hpasses _ _ =>
    refine ⟨hpasses, ?_⟩
    intro j child hj
    obtain ⟨rfl, rfl⟩ := some_pair_inj hj
    exact ⟨hi, hused, nofun⟩
  | idle _ _ hpasses _ _ => exact ⟨hpasses, nofun⟩

theorem PassesSources.mesh_eq (hpasses : PassesSources nwk next indices) :
    next.mesh = nwk.mesh := by
  obtain ⟨⟨ents, rfl⟩, -⟩ := hpasses
  rfl

theorem countTransmission_eq_some {ent counted : NwkBroadcastRetransmit} {child : Option ℕ}
    (hcount : nwk.countTransmission ent child = some counted) :
    (child = none ∧ counted =
        { ent with
          nextRetransmit := nwk.timer + nwkRreqRetryInterval
          retries := (ent.retries + 1) % 2 ^ 6 }) ∨
      ∃ n, child = some n ∧ n < nwkPassiveAckBits ∧ counted =
          { nwk.passedOver ent n with
            passiveAck := insert n ent.passiveAck } := by
  cases child with
  | none => exact .inl ⟨rfl, (some.inj hcount).symm⟩
  | some n =>
    rw [countTransmission] at hcount
    split at hcount
    · rename_i hn
      exact .inr ⟨n, rfl, hn, (some.inj hcount).symm⟩
    · contradiction

structure Sends (nwk after : NwkMain) (buf : ℕ) (child : Option ℕ) : Prop where
  mesh : after.mesh = nwk.mesh
  timer : after.timer = nwk.timer
  packets : ∀ p, p ≠ buf → after.packets p = nwk.packets p
  child : ∀ n, child = some n → (after.packets buf).macDst = rowAddress nwk.mesh.zg n ∧
      (after.packets buf).indirect = true

theorem sends_sendBroadcast {nwk before : NwkMain} {buf : ℕ} (child : Option ℕ)
    (hmesh : before.mesh = nwk.mesh) (htimer : before.timer = nwk.timer)
    (hpackets : ∀ p, p ≠ buf → before.packets p = nwk.packets p) :
    Sends nwk (before.sendBroadcast buf child) buf child := by
  cases child with
  | none => exact ⟨hmesh, htimer, hpackets, nofun⟩
  | some n =>
    refine ⟨hmesh, htimer, ?_, ?_⟩
    · intro p hp
      exact (update_of_ne hp _ _).trans (hpackets p hp)
    · intro k hk
      obtain rfl := some.inj hk
      rw [sendBroadcast, setPacket, ← hmesh]
      simp

inductive TransmitCase (nwk : NwkMain) (param : ℕ) : NwkMain × List NwkOutput → Prop
  | idle (next : NwkMain) (hpick : nwk.pickBroadcast = (next, none)) :
      TransmitCase nwk param (next, (if param ≠ 0 then [.freeBuf param] else []) ++
            next.scheduleTransmition false)
  | waits (next : NwkMain) (i : ℕ) (child : Option ℕ)
      (hpick : nwk.pickBroadcast = (next, some (i, child)))
      (hparam : param = 0) :
      TransmitCase nwk param (next, [.getBufDelayed .nwkBroadcastTransmition false])
  | copied (next after : NwkMain) (i : ℕ) (child : Option ℕ) (ent : NwkBroadcastRetransmit)
      (hpick : nwk.pickBroadcast = (next, some (i, child)))
      (hparam : param ≠ 0)
      (hcount : next.countTransmission (next.brrt.ents i) child = some ent)
      (hnotLast : ¬ next.LastTransmission ent (scanIndex (next.brrt.ents i) i child))
      (hbrrt : after.brrt = next.brrt.setEnt i ent)
      (hsends : Sends next after param child) :
      TransmitCase nwk param (after,
          .schedule .mcpsDataRequest param :: after.scheduleTransmition true)
  | last (next after : NwkMain) (i : ℕ) (child : Option ℕ) (ent : NwkBroadcastRetransmit)
      (hpick : nwk.pickBroadcast = (next, some (i, child)))
      (hparam : param ≠ 0)
      (hcount : next.countTransmission (next.brrt.ents i) child = some ent)
      (hlast : next.LastTransmission ent (scanIndex (next.brrt.ents i) i child))
      (hbrrt : after.brrt = (next.brrt.setEnt i ent).putEnt i)
      (hsends : Sends next after ent.buf child) :
      TransmitCase nwk param (after,
          [.freeBuf param, .schedule .mcpsDataRequest ent.buf] ++
            after.scheduleTransmition true)

theorem nwkBroadcastTransmition_cases
    (htransmit : nwk.nwkBroadcastTransmition param = some result) :
    TransmitCase nwk param result := by
  unfold nwkBroadcastTransmition at htransmit
  split at htransmit
  · rename_i next i child hpick
    split at htransmit
    · rename_i hparam
      obtain rfl := some.inj htransmit
      exact .waits next i child hpick hparam
    · rename_i hparam
      obtain ⟨ent, hcount, hrest⟩ := bind_eq_some_iff.mp htransmit
      dsimp only at hrest
      split at hrest
      · rename_i hlast
        obtain rfl := some.inj hrest
        exact .last next _ i child ent hpick hparam hcount hlast
          (BroadcastRun.sendBroadcast_brrt _ _ _).2
          (sends_sendBroadcast child rfl rfl fun _ _ => rfl)
      · rename_i hnotLast
        obtain rfl := some.inj hrest
        refine .copied next _ i child ent hpick hparam hcount hnotLast ?_ ?_
        · rw [(BroadcastRun.sendBroadcast_brrt _ _ _).2]
          split
          · rfl
          · rfl
        · apply sends_sendBroadcast
          · split
            · rfl
            · rfl
          · split
            · rfl
            · rfl
          · intro p hp
            split
            · exact update_of_ne hp _ _
            · rfl
  · rename_i next hpick
    obtain rfl := some.inj htransmit
    exact .idle next hpick

theorem TransmitCase.mesh_eq (hcase : TransmitCase nwk param result) :
    result.1.mesh = nwk.mesh := by
  cases hcase with
  | idle next hpick => exact (picked_of_pickBroadcast hpick).passes.mesh_eq
  | waits next i child hpick hparam => exact (picked_of_pickBroadcast hpick).passes.mesh_eq
  | copied next after i child ent hpick _ _ _ _ hsends =>
    exact hsends.mesh.trans (picked_of_pickBroadcast hpick).passes.mesh_eq
  | last next after i child ent hpick _ _ _ _ hsends =>
    exact hsends.mesh.trans (picked_of_pickBroadcast hpick).passes.mesh_eq

/-- The frame is handled behind the checks of `zb_mcps_data_indication`, as a
broadcast. -/
def HandledBroadcast (nwk : NwkMain) (packet : NwkPacket) : Prop :=
  packet.radius ≠ 0 ∧ packet.payload ≠ .reserved ∧
    nwkIsAddressBroadcast packet.dstAddr = true ∧
    nwk.supportedBroadcast packet.dstAddr = true

instance (nwk : NwkMain) (packet : NwkPacket) :
    Decidable (nwk.HandledBroadcast packet) :=
  inferInstanceAs (Decidable (_ ∧ _))

def copyOf (nwk : NwkMain) (packet : NwkPacket) : Option (ℕ × ℕ) :=
  let found := nwk.brrt.findEnt fun ent =>
    ent.srcAddr == packet.srcAddr && ent.seqNum == packet.seqNum
  match nwk.joinedPro, found, packet.macSource with
  | false, some i, some macSource =>
      (zbNwkNeighborGetByShort nwk.mesh.zg macSource).2.map (i, ·)
  | _, _, _ => none

def overheard (nwk : NwkMain) (packet : NwkPacket) : Option (ℕ × ℕ) :=
  if nwk.HandledBroadcast packet then nwk.copyOf packet else none

def ackedEnt (nwk : NwkMain) (i n : ℕ) : NwkBroadcastRetransmit :=
  { nwk.brrt.ents i with
    passiveAck := insert n (nwk.brrt.ents i).passiveAck }

/-- The bits which are set behind a copy from the row `n` are as many as those of
all neighbors which relay. -/
def AckedByAll (nwk : NwkMain) (i n : ℕ) : Prop :=
  nwk.AllAcked (nwk.ackedEnt i n) (nwk.ackedEnt i n).passiveAck.card

inductive OverheardCase (nwk : NwkMain) (packet : NwkPacket) :
    NwkArray nwkBrrTableSize NwkBroadcastRetransmit → Prop
  | none (hnone : nwk.overheard packet = none) : OverheardCase nwk packet nwk.brrt
  | marked (i n : ℕ) (hcopy : nwk.overheard packet = some (i, n))
      (hi : i < nwkBrrTableSize) (hused : nwk.brrt.used i = true)
      (hn : n < nwkPassiveAckBits)
      (hnot : ¬ nwk.AckedByAll i n) :
      OverheardCase nwk packet (nwk.brrt.setEnt i (nwk.ackedEnt i n))
  | ended (i n : ℕ) (hcopy : nwk.overheard packet = some (i, n))
      (hi : i < nwkBrrTableSize) (hused : nwk.brrt.used i = true)
      (hn : n < nwkPassiveAckBits)
      (hall : nwk.AckedByAll i n) :
      OverheardCase nwk packet ((nwk.brrt.setEnt i (nwk.ackedEnt i n)).putEnt i)

theorem zbNwkNeighborGetByShort_neighbor (zg : Globals) (shortAddr : ℕ) :
    (zbNwkNeighborGetByShort zg shortAddr).1.neighbor = zg.neighbor := by
  unfold zbNwkNeighborGetByShort
  split
  · rfl
  · rfl
  · rfl

theorem allAcked_congr {nwk nwk' : NwkMain} {ent : NwkBroadcastRetransmit} {acks : ℕ}
    (hneighbor : nwk'.mesh.zg.neighbor = nwk.mesh.zg.neighbor)
    (haddress : nwk'.mesh.address = nwk.mesh.address) :
    nwk'.AllAcked ent acks ↔ nwk.AllAcked ent acks := by
  unfold AllAcked passiveAckDevNum
  rw [hneighbor, haddress]

theorem markPassiveAck_case (hhandled : nwk.HandledBroadcast packet)
    (hmark : nwk.markPassiveAck packet = some result) :
    OverheardCase nwk packet result.1.brrt := by
  have hcopy : nwk.overheard packet = nwk.copyOf packet := if_pos hhandled
  unfold markPassiveAck at hmark
  dsimp only at hmark
  split at hmark
  · rename_i i macSource hpro hfound hsource
    obtain ⟨hi, hused, -⟩ := NwkArray.findEnt_eq_some hfound
    have hneighbor := zbNwkNeighborGetByShort_neighbor nwk.mesh.zg macSource
    have hmap : nwk.copyOf packet =
        (zbNwkNeighborGetByShort nwk.mesh.zg macSource).2.map (i, ·) := by
      rw [copyOf, hpro, hfound, hsource]
    rw [hmap] at hcopy
    split at hmark
    · rename_i zg n hrow
      rw [hrow] at hcopy hneighbor
      split at hmark
      · rename_i hn
        have hiff : ({ nwk.setZg zg with
            brrt := nwk.brrt.setEnt i (nwk.ackedEnt i n) } : NwkMain).AllAcked
              (nwk.ackedEnt i n) (nwk.ackedEnt i n).passiveAck.card ↔ nwk.AckedByAll i n :=
          allAcked_congr hneighbor rfl
        split at hmark
        · rename_i hall
          obtain rfl := some.inj hmark
          exact .ended i n hcopy hi hused hn (hiff.mp hall)
        · rename_i hnot
          obtain rfl := some.inj hmark
          exact .marked i n hcopy hi hused hn (fun h => hnot (hiff.mpr h))
      · contradiction
    · rename_i zg hrow
      rw [hrow] at hcopy
      obtain rfl := some.inj hmark
      exact .none hcopy
  · rename_i hnone
    obtain rfl := some.inj hmark
    refine .none (hcopy.trans ?_)
    rw [copyOf]
    split
    · rename_i i macSource hpro hfound hsource
      exact absurd hsource (hnone i macSource hpro hfound)
    · rfl

theorem OverheardCase.of_receivedFrame
    {brrt : NwkArray nwkBrrTableSize NwkBroadcastRetransmit}
    (hcase : OverheardCase (nwk.receivedFrame param packet) packet brrt) :
    OverheardCase nwk packet brrt := by
  cases hcase with
  | none hnone => exact .none hnone
  | marked i n hcopy hi hused hn hnot => exact .marked i n hcopy hi hused hn hnot
  | ended i n hcopy hi hused hn hall => exact .ended i n hcopy hi hused hn hall

theorem indication_overheard {lqi : UInt8} {unsecure : Unsecure}
    (hindication : nwk.zbMcpsDataIndication param packet lqi unsecure = some result) :
    OverheardCase nwk packet result.1.brrt := by
  have hother : ¬ nwk.HandledBroadcast packet →
      OverheardCase nwk packet nwk.brrt :=
    fun hnot => .none (if_neg hnot)
  unfold zbMcpsDataIndication at hindication
  dsimp only at hindication
  split at hindication
  · rename_i hbad
    obtain rfl := some.inj hindication
    exact hother fun hhandled => hbad.elim hhandled.1 hhandled.2.1
  · rename_i hbad
    rw [not_or] at hbad
    split at hindication
    · rename_i hbroadcast
      split at hindication
      · rename_i hsupported
        have hhandled : (nwk.receivedFrame param packet).HandledBroadcast packet :=
          ⟨hbad.1, hbad.2, hbroadcast, hsupported⟩
        obtain ⟨⟨marked, acked⟩, hmark, hrest⟩ := bind_eq_some_iff.mp hindication
        have hreceived : OverheardCase (nwk.receivedFrame param packet) packet
            marked.brrt := markPassiveAck_case hhandled hmark
        have hcase := hreceived.of_receivedFrame
        dsimp only at hrest
        split at hrest
        · split at hrest
          · rename_i recorded started hadd
            obtain ⟨⟨last, outputs⟩, hhandle, hlast⟩ := bind_eq_some_iff.mp hrest
            obtain rfl := some.inj hlast
            obtain ⟨-, i, -, rfl⟩ := addBtr_eq_some hadd
            have hsame := (handleFrame_spec hhandle).1.brrt
            dsimp only at hsame ⊢
            rw [hsame]
            exact hcase
          · obtain rfl := some.inj hrest
            exact hcase
        · obtain rfl := some.inj hrest
          exact hcase
      · rename_i hunsupported
        obtain rfl := some.inj hindication
        exact hother fun hhandled => hunsupported hhandled.2.2.2
    · rename_i hunicast
      have hsame := (handleFrame_spec hindication).1.brrt
      rw [hsame]
      exact hother fun hhandled => hunicast hhandled.2.2.1

inductive ForwardEntries (nwk : NwkMain) (param : ℕ) (next : NwkMain) : Prop
  | same (hbrrt : next.brrt = nwk.brrt)
  | added (i : ℕ) (ent : NwkBroadcastRetransmit) (hfree : nwk.brrt.freeEnt = some i)
      (hbrrt : next.brrt = nwk.brrt.takeEnt i ent)
      (hbuf : ent.buf = param) (hretries : ent.retries = 0)
      (hacks : ent.passiveAck = ∅)
      (hiter : ent.neighborTableIterator = nextZeChildrenI next.mesh.zg ent.dstAddr 0)

section Tables

variable {routed recorded : NwkMain} {started : List NwkOutput}

section

variable (hrec : Recorded routed param recorded started)

include hrec

theorem Recorded.tables :
    recorded.brrt = routed.brrt ∧ recorded.packets = routed.packets := by
  cases hrec with
  | kept => exact ⟨rfl, rfl⟩
  | added _ hadd =>
    obtain ⟨-, i, -, rfl⟩ := addBtr_eq_some hadd
    exact ⟨rfl, rfl⟩

theorem Recorded.brrt : recorded.brrt = routed.brrt :=
  hrec.tables.1

theorem Recorded.packets : recorded.packets = routed.packets :=
  hrec.tables.2

end

theorem forwardFailed_brrt (nwk : NwkMain) (param macDst : ℕ) :
    (nwk.forwardFailed param macDst).1.brrt = nwk.brrt := by
  obtain ⟨⟨zg, heq⟩, -⟩ := BroadcastRun.forwardFailed_spec nwk param macDst
  rw [heq]
  rfl

theorem forwardFailed_packets (nwk : NwkMain) (param macDst : ℕ) :
    (nwk.forwardFailed param macDst).1.packets = nwk.packets := by
  obtain ⟨⟨zg, heq⟩, -⟩ := BroadcastRun.forwardFailed_spec nwk param macDst
  rw [heq]
  rfl

variable {ret : CalcDestination} {outputs : List NwkOutput}

section

variable (hcalc : nwk.nwkCalcDestination param = some (routed, ret, outputs))

include hcalc

theorem brrt_of_calcDestination : routed.brrt = nwk.brrt :=
  (BroadcastRun.routesChanged_tables (nwkCalcDestination_calculates hcalc).changed).2

theorem packets_of_calcDestination : routed.packets = nwk.packets := by
  obtain ⟨_, _, _, rfl⟩ := (nwkCalcDestination_calculates hcalc).changed
  rfl

end

end Tables

theorem zbNwkForward_entries (hforward : nwk.zbNwkForward param = some result) :
    ForwardEntries nwk param result.1 := by
  cases zbNwkForward_cases hforward with
  | waits hcalc => exact .same (brrt_of_calcDestination hcalc)
  | noDestination hcalc =>
    exact .same ((forwardFailed_brrt ..).trans (brrt_of_calcDestination hcalc))
  | noRecord hcalc _ =>
    exact .same ((forwardFailed_brrt ..).trans (brrt_of_calcDestination hcalc))
  | noRetransmit hcalc hrec _ =>
    have hsame := hrec.brrt.trans (brrt_of_calcDestination hcalc)
    exact .same ((forwardFailed_brrt ..).trans hsame)
  | sent hcalc hrec => exact .same (hrec.brrt.trans (brrt_of_calcDestination hcalc))
  | @retransmits routed recorded macDst i indirect _ _ hcalc hrec hfree =>
    have hsame := hrec.brrt.trans (brrt_of_calcDestination hcalc)
    rw [hsame] at hfree
    refine .added i ((recorded.readyForMac param macDst indirect).retransmitEnt param i)
      hfree ?_ rfl rfl rfl rfl
    dsimp only
    rw [hsame]

theorem zbNwkForward_packets {buf : ℕ}
    (hforward : nwk.zbNwkForward param = some result) (hbuf : buf ≠ param) :
    result.1.packets buf = nwk.packets buf := by
  have hready : ∀ (recorded : NwkMain) (macDst : ℕ) (indirect : Bool),
      (recorded.readyForMac param macDst indirect).packets buf = recorded.packets buf :=
    fun _ _ _ => update_of_ne hbuf ..
  cases zbNwkForward_cases hforward with
  | waits hcalc => exact congrFun (packets_of_calcDestination hcalc) buf
  | noDestination hcalc =>
    have hsame := packets_of_calcDestination hcalc
    exact congrFun ((forwardFailed_packets ..).trans hsame) buf
  | noRecord hcalc _ =>
    have hsame := packets_of_calcDestination hcalc
    exact congrFun ((forwardFailed_packets ..).trans hsame) buf
  | noRetransmit hcalc hrec _ =>
    have hsame := hrec.packets.trans (packets_of_calcDestination hcalc)
    exact (congrFun (forwardFailed_packets ..) buf).trans
      ((hready ..).trans (congrFun hsame buf))
  | sent hcalc hrec =>
    have hsame := hrec.packets.trans (packets_of_calcDestination hcalc)
    exact (hready ..).trans (congrFun hsame buf)
  | retransmits hcalc hrec _ =>
    have hsame := hrec.packets.trans (packets_of_calcDestination hcalc)
    exact (hready ..).trans (congrFun hsame buf)

end NwkMain

end Zboss
