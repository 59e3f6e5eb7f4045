import Zboss.UsedEntries

/-!
# The scan of the duplicate filter

The loop of `zb_aps_check_timer_cb` looks at `n_elements` used entries.  Where
this is their number it ages each of them once and ends inside the table.
-/

namespace Zboss

open TransitionSystem

def ApsDup.aged (ent : ApsDup) : ApsDup :=
  if ent.clock ≠ 0 then { ent with clock := ent.clock - 1 } else ent

namespace ApsDupGlobals

def agedFrom (addr : AddrGlobals) (i : ℕ) (dup : ℕ → ApsDup) (ref : ℕ) :
    ApsDup :=
  if i ≤ ref ∧ ref ∈ usedEntries addr then (dup ref).aged else dup ref

structure ScanComplete (g g' : ApsDupGlobals) : Prop where
  addr : g'.addr = g.addr
  used : ∀ ref, ref ∈ usedEntries g.addr → g'.dup ref = (g.dup ref).aged
  unused : ∀ ref, ref ∉ usedEntries g.addr → g'.dup ref = g.dup ref
  running : g'.dupsAlarmRunning = true ↔ ∃ ref, ref ∈ usedEntries g.addr ∧ g'.Running ref

def ScansUsed (g : ApsDupGlobals) : Prop :=
  g.addr.nElements.toNat = (usedEntries g.addr).card ∧
    ∃ g', g.zbApsCheckTimerCb = some g' ∧ ScanComplete g g'

section Scan

variable {addr : AddrGlobals} {rounds i n : ℕ} {dup : ℕ → ApsDup} {running : Bool}

theorem dupScan_succ (hn : n < addr.nElements.toNat) (hi : i < ieeeAddrTableSize) :
    dupScan addr (rounds + 1) i n dup running =
      dupScan addr rounds (i + 1) (n + (addr.addrMap i).used.toNat)
        (Function.update dup i (agedFrom addr i dup i))
        (running || decide
          (i ∈ usedEntries addr ∧ (agedFrom addr i dup i).clock ≠ 0)) := by
  rw [dupScan, if_pos hn]
  cases hused : (addr.addrMap i).used with
  | false =>
    have hout : i ∉ usedEntries addr := by simp [usedEntries, hused]
    simp [agedFrom, hout]
  | true =>
    have hin : i ∈ usedEntries addr := by simp [usedEntries, hused, hi]
    by_cases hclock : (dup i).clock = 0
    · simp [agedFrom, hin, ApsDup.aged, hclock]
    · simp [agedFrom, hin, ApsDup.aged, hclock]

theorem agedFrom_of_unused (hunused : ∀ ref, i ≤ ref → ref ∉ usedEntries addr) :
    agedFrom addr i dup = dup := by
  funext ref
  rw [agedFrom, if_neg]
  rintro ⟨hi, href⟩
  exact hunused ref hi href

theorem agedFrom_succ :
    agedFrom addr (i + 1) (Function.update dup i (agedFrom addr i dup i)) =
      agedFrom addr i dup := by
  funext ref
  by_cases href : ref = i
  · subst href
    rw [agedFrom, if_neg (by omega), Function.update_self]
  · have hle : i + 1 ≤ ref ↔ i ≤ ref := by omega
    simp only [agedFrom, Function.update_of_ne href, hle]

theorem exists_ge_succ {P : ℕ → Prop} :
    (∃ ref, i ≤ ref ∧ P ref) ↔ P i ∨ ∃ ref, i + 1 ≤ ref ∧ P ref := by
  constructor
  · rintro ⟨ref, hi, hP⟩
    rcases Nat.eq_or_lt_of_le hi with rfl | hlt
    · exact Or.inl hP
    · exact Or.inr ⟨ref, hlt, hP⟩
  · rintro (hP | ⟨ref, hi, hP⟩)
    · exact ⟨i, Nat.le_refl i, hP⟩
    · exact ⟨ref, Nat.le_of_succ_le hi, hP⟩

/-- From the entry `i` on, with all used entries before it counted, the loop
ages the rest and ends inside the table. -/
theorem dupScan_eq (hcount : addr.nElements.toNat = (usedEntries addr).card)
    (dup : ℕ → ApsDup) (running : Bool)
    (hrounds : i + rounds = ieeeAddrTableSize)
    (n : ℕ) (hn : n = (SlotTable.inUse i fun ref => (addr.addrMap ref).used).card) :
    ∃ running', dupScan addr rounds i n dup running =
          some (agedFrom addr i dup, running') ∧
        (running' = true ↔ running = true ∨ ∃ ref, i ≤ ref ∧ ref ∈ usedEntries addr ∧
            (agedFrom addr i dup ref).clock ≠ 0) := by
  induction rounds generalizing i n dup running with
  | zero =>
    have hend : ¬ n < addr.nElements.toNat := by
      rw [hcount, hn, usedEntries, ← hrounds, Nat.add_zero]
      exact Nat.lt_irrefl _
    have hnone : ∀ ref, i ≤ ref → ref ∉ usedEntries addr := by
      intro ref hi href
      have hlt := (SlotTable.mem_inUse.mp href).1
      omega
    refine ⟨running, ?_, ?_⟩
    · rw [dupScan, if_neg hend, agedFrom_of_unused hnone]
    · constructor
      · exact Or.inl
      · rintro (hrunning | ⟨ref, hi, href, _⟩)
        · exact hrunning
        · exact absurd href (hnone ref hi)
  | succ rounds ih =>
    by_cases hmore : n < addr.nElements.toNat
    · have hnext : n + (addr.addrMap i).used.toNat = (SlotTable.inUse (i + 1)
            fun ref => (addr.addrMap ref).used).card := by
        rw [hn, SlotTable.card_inUse_succ]
      obtain ⟨running', hscan, hiff⟩ :=
        ih (Function.update dup i (agedFrom addr i dup i)) (running || decide
            (i ∈ usedEntries addr ∧ (agedFrom addr i dup i).clock ≠ 0))
          (by omega) _ hnext
      refine ⟨running', ?_, ?_⟩
      · rw [dupScan_succ hmore (by omega), hscan, agedFrom_succ]
      · rw [hiff, agedFrom_succ, Bool.or_eq_true, decide_eq_true_eq, or_assoc]
        exact or_congr_right (exists_ge_succ (P := fun ref => ref ∈ usedEntries addr ∧
            (agedFrom addr i dup ref).clock ≠ 0)).symm
    · have hnone : ∀ ref, i ≤ ref → ref ∉ usedEntries addr := by
        intro ref hi href
        obtain ⟨hlt, hused⟩ := SlotTable.mem_inUse.mp href
        have hunused := SlotTable.unused_of_card_le (i := ref)
          (by rw [← hn, ← usedEntries]; omega) hi hlt
        rw [hunused] at hused
        contradiction
      refine ⟨running, ?_, ?_⟩
      · rw [dupScan, if_neg hmore, agedFrom_of_unused hnone]
      · constructor
        · exact Or.inl
        · rintro (hrunning | ⟨ref, hi, href, _⟩)
          · exact hrunning
          · exact absurd href (hnone ref hi)

end Scan

theorem scansUsed_of_countsUsed {g : ApsDupGlobals}
    (hcounts : CountsUsed g.addr) : g.ScansUsed := by
  refine ⟨hcounts.nElements, ?_⟩
  obtain ⟨running, hscan, hiff⟩ :=
    dupScan_eq hcounts.nElements g.dup false (Nat.zero_add ieeeAddrTableSize) 0 rfl
  have htick : g.zbApsCheckTimerCb =
      some { g with dup := agedFrom g.addr 0 g.dup
                    dupsAlarmRunning := running } := by
    rw [zbApsCheckTimerCb, hscan]
    rfl
  refine ⟨_, htick, rfl, ?_, ?_, ?_⟩
  · intro ref href
    exact if_pos ⟨Nat.zero_le ref, href⟩
  · intro ref href
    exact if_neg fun hin => href hin.2
  · rw [hiff]
    simp [Running]

theorem zbApsCheckTimerCb_addr {g g' : ApsDupGlobals}
    (htick : g.zbApsCheckTimerCb = some g') : g'.addr = g.addr := by
  obtain ⟨_, _, rfl⟩ := Option.map_eq_some_iff.mp htick
  rfl

end ApsDupGlobals

namespace ApsDupRun

variable {D : Type} {run run' : ApsDupRun D}

theorem receive_addr {packet : ApsPacket D} (hreceive : run.receive packet = some run') :
    ∃ ret, zbAddressByShort run.g.addr packet.srcAddr true false =
      some (run'.g.addr, ret) := by
  obtain ⟨⟨g, isDup⟩, hcheck, rfl⟩ := Option.map_eq_some_iff.mp hreceive
  obtain ⟨⟨addr, ret⟩, hfind, hresult⟩ := Option.bind_eq_some_iff.mp hcheck
  refine ⟨ret, ?_⟩
  cases ret with
  | error err =>
    simp only [Option.some.injEq, Prod.mk.injEq] at hresult
    rw [hfind, ← hresult.1]
  | ok ref =>
    simp only [Option.some.injEq, Prod.mk.injEq] at hresult
    rw [hfind, ← hresult.1]

theorem leave_eq_some {shortAddress : ℕ} (hleave : run.leave shortAddress = some run') :
    ∃ addr ret, zbAddressByShort run.g.addr shortAddress false false = some (addr, ret) ∧
      ((∃ err, ret = .error err ∧ run' = run.setAddr addr) ∨ ∃ ref, ret = .ok ref ∧
          run' = run.setAddr (zbAddressDelete addr ref)) := by
  obtain ⟨⟨addr, ret⟩, hfind, hresult⟩ := Option.bind_eq_some_iff.mp hleave
  refine ⟨addr, ret, hfind, ?_⟩
  cases ret with
  | error err => exact Or.inl ⟨err, rfl, (Option.some.inj hresult).symm⟩
  | ok ref => exact Or.inr ⟨ref, rfl, (Option.some.inj hresult).symm⟩

end ApsDupRun

theorem CountsUsed.used_of_found {g g' : AddrGlobals} {shortAddress ref : ℕ}
    (hcounts : CountsUsed g)
    (hfind : Zboss.zbAddressByShort g shortAddress false false = some (g', .ok ref)) :
    ref < ieeeAddrTableSize ∧ (g'.addrMap ref).used = true := by
  rcases zbAddressByShort_eq_some hfind with ⟨found, hsearch, hret, hlock⟩ |
    ⟨_, _, _, hret⟩ | ⟨_, hcreate, _⟩
  · obtain rfl := Except.ok.inj hret
    obtain ⟨⟨hlt, hused, _⟩, _⟩ := hcounts.shortSearch_eq_some hsearch
    have hsame := (sameTable_markClock g ref).sameTranslation.trans
      (sameTranslation_lockResult hlock)
    exact ⟨hlt, (hsame.entry ref).used.trans hused⟩
  · contradiction
  · contradiction

def ApsDupEvent.Balanced {D : Type} (run : ApsDupRun D) : ApsDupEvent D → Prop
  | .address call => call.Balanced run.g.addr
  | _ => True

instance (g : AddrGlobals) (call : AddressCall) : Decidable (call.Balanced g) :=
  match call with
  | .byIeee _ _ _ => inferInstanceAs (Decidable True)
  | .byShort _ _ _ => inferInstanceAs (Decidable True)
  | .update ieee shortAddress _ =>
      inferInstanceAs (Decidable (shortAddress = unknownShort → ∀ ref,
        longHit g ieee = some ref → (g.addrMap ref).addr = unknownShort))
  | .delete ref =>
      inferInstanceAs (Decidable (ref < ieeeAddrTableSize ∧ (g.addrMap ref).used = true))

instance {D : Type} (run : ApsDupRun D) (event : ApsDupEvent D) :
    Decidable (event.Balanced run) :=
  match event with
  | .packet _ => inferInstanceAs (Decidable True)
  | .tick => inferInstanceAs (Decidable True)
  | .address call => inferInstanceAs (Decidable (call.Balanced run.g.addr))
  | .leave _ => inferInstanceAs (Decidable True)

theorem CountsUsed.step {D : Type} {run run' : ApsDupRun D} {event : ApsDupEvent D}
    (hcounts : CountsUsed run.g.addr) (hbalanced : event.Balanced run)
    (hstep : run.step event = some run') : CountsUsed run'.g.addr := by
  cases event with
  | packet packet =>
    obtain ⟨_, hfind⟩ := ApsDupRun.receive_addr hstep
    exact hcounts.zbAddressByShort hfind
  | tick =>
    obtain ⟨g, htick, rfl⟩ := Option.map_eq_some_iff.mp hstep
    rw [ApsDupGlobals.zbApsCheckTimerCb_addr htick]
    exact hcounts
  | address call =>
    obtain ⟨addr, happly, rfl⟩ := Option.map_eq_some_iff.mp hstep
    exact hcounts.apply hbalanced happly
  | leave shortAddress =>
    obtain ⟨addr, ret, hfind, ⟨_, _, rfl⟩ | ⟨ref, rfl, rfl⟩⟩ :=
      ApsDupRun.leave_eq_some hstep
    · exact hcounts.zbAddressByShort hfind
    · obtain ⟨href, hused⟩ := hcounts.used_of_found hfind
      exact (hcounts.zbAddressByShort hfind).zbAddressDelete href hused

/-- In every run of balanced calls `n_elements` is exact in each state, and a
tick there scans all used entries. -/
theorem scansUsed_of_balanced {D : Type} (events : List (ApsDupEvent D))
    (hbalanced : AlongRun ApsDupRun.step
      (fun run event => event.Balanced run) ApsDupRun.start events) :
    EveryState ApsDupRun.step (fun run => run.g.ScansUsed) ApsDupRun.start events :=
  everyState_of_invariant
    (fun _ _ _ hcounts hcall hstep => CountsUsed.step hcounts hcall hstep)
    (fun _ hcounts => ApsDupGlobals.scansUsed_of_countsUsed hcounts)
    countsUsed_zeroed hbalanced

def twoSources : List (ApsDupEvent Unit) :=
  [.packet ⟨(), 5, 1⟩, .packet ⟨(), 6, 1⟩, .tick, .address (.byIeee sampleIeee true false),
    .address (.update sampleIeee 5 false), .leave 6, .tick]

theorem scansUsed_twoSources : EveryState ApsDupRun.step (fun run => run.g.ScansUsed)
      ApsDupRun.start twoSources :=
  scansUsed_of_balanced twoSources (by decide +kernel)

/-- An update to the unknown short address lists the entry, the next update
lists it once more, and `del_short_sorted` skips the second place. -/
def unknownShortRun : List (ApsDupEvent Unit) :=
  [.address (.update sampleIeee 5 false), .address (.update sampleIeee unknownShort false),
    .address (.update sampleIeee 6 false), .leave 6, .leave 6]

/-- The entry is deleted twice, and the scan leaves the table. -/
theorem not_scansUsed_unknownShort :
    ∃ run, TransitionSystem.run ApsDupRun.step ApsDupRun.start unknownShortRun = some run ∧
      run.g.addr.nElements.toNat ≠ (usedEntries run.g.addr).card ∧
      run.g.zbApsCheckTimerCb.isNone ∧ ¬ run.g.ScansUsed := by
  have hresult : (TransitionSystem.run ApsDupRun.step ApsDupRun.start unknownShortRun).map
          (fun run => (run.g.addr.nElements.toNat,
            (usedEntries run.g.addr).card, run.g.zbApsCheckTimerCb.isNone)) =
        some (0xFFFFFFFF, 0, true) := by
    decide +kernel
  obtain ⟨run, hrun, hobserved⟩ := Option.map_eq_some_iff.mp hresult
  simp only [Prod.mk.injEq] at hobserved
  obtain ⟨hn, hcard, hnone⟩ := hobserved
  have hne : run.g.addr.nElements.toNat ≠ (usedEntries run.g.addr).card := by
    rw [hn, hcard]
    decide
  exact ⟨run, hrun, hne, hnone, fun hscans => hne hscans.1⟩

end Zboss
