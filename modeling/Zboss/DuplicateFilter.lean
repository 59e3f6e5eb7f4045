import Zboss.DuplicateScan

/-!
# Soundness of the duplicate filter

An entry which runs holds the counter of an earlier packet, but not necessarily
of the device whose packet meets it: neither deletion of an entry nor its
creation for another address stops the clock.
-/

namespace Zboss

open Function Option TransitionSystem

namespace ApsDupGlobals

theorem dupScan_entry {addr : AddrGlobals} {rounds i n : ℕ} {dup dup' : ℕ → ApsDup}
    {running running' : Bool}
    (hscan : dupScan addr rounds i n dup running = some (dup', running'))
    (ref : ℕ) :
    dup' ref = dup ref ∨ (i ≤ ref ∧ dup' ref = (dup ref).aged) := by
  induction rounds generalizing i n dup running with
  | zero =>
    rw [dupScan] at hscan
    split at hscan
    · contradiction
    · obtain ⟨rfl, _⟩ := some_pair_inj hscan
      exact Or.inl rfl
  | succ rounds ih =>
    rw [dupScan] at hscan
    split at hscan
    swap
    · obtain ⟨rfl, _⟩ := some_pair_inj hscan
      exact Or.inl rfl
    have hlater : ∀ {n running}, dupScan addr rounds (i + 1) n dup running =
        some (dup', running') →
          dup' ref = dup ref ∨ (i ≤ ref ∧ dup' ref = (dup ref).aged) := by
      intro n running hrest
      exact (ih hrest).imp_right fun hlate => ⟨by omega, hlate.2⟩
    dsimp only at hscan
    split at hscan
    · split at hscan
      · rename_i hclock
        by_cases href : ref = i
        · subst href
          rcases ih hscan with heq | ⟨hlt, _⟩
          · right
            rw [heq, update_self, ApsDup.aged, if_pos hclock]
            exact ⟨Nat.le_refl ref, rfl⟩
          · omega
        · have hcases := ih hscan
          rw [update_of_ne href] at hcases
          exact hcases.imp_right fun hlate => ⟨by omega, hlate.2⟩
      · exact hlater hscan
    · exact hlater hscan

theorem zbApsCheckTimerCb_entry {g g' : ApsDupGlobals}
    (htick : g.zbApsCheckTimerCb = some g') (ref : ℕ) :
    g'.dup ref = g.dup ref ∨ g'.dup ref = (g.dup ref).aged := by
  obtain ⟨⟨dup, running⟩, hscan, rfl⟩ := map_eq_some_iff.mp htick
  exact (dupScan_entry hscan ref).imp_right And.right

end ApsDupGlobals

@[simp] theorem ApsDup.aged_counter (ent : ApsDup) : ent.aged.counter = ent.counter := by
  unfold aged
  split
  · rfl
  · rfl

theorem ApsDup.clock_of_aged {ent : ApsDup} (haged : ent.aged.clock ≠ 0) :
    ent.clock ≠ 0 := by
  intro hzero
  rw [aged, if_neg (by simpa using hzero)] at haged
  exact haged hzero

/-! ## Packets -/

theorem zbAddressByShort_create
    {g g' : AddrGlobals} {shortAddress : ℕ} {ret : Except RetError ℕ}
    (hfind : zbAddressByShort g shortAddress true false = some (g', ret)) :
    ret.toOption = (shortSearch g shortAddress).or (freeEntry g none) := by
  rcases zbAddressByShort_eq_some hfind with ⟨ref, hsearch, rfl, _⟩ |
    ⟨_, hcreate, _⟩ | ⟨hsearch, _, g₂, ret', hadd, hlock⟩
  · rw [hsearch]
    rfl
  · contradiction
  · rw [hsearch, (lockResult_eq_some hlock).1]
    rcases addrAdd_eq_some hadd with ⟨hfull, rfl, _⟩ | ⟨i, rfl, hadded⟩
    · rw [hfull]
      rfl
    · rw [hadded.free]
      rfl

namespace ApsDupRun

variable {D : Type} {run run' : ApsDupRun D} {packet : ApsPacket D}

theorem receive_eq_some (hreceive : run.receive packet = some run') :
    (entryFor run.g packet.srcAddr = none ∧ run'.g.dup = run.g.dup ∧
        run'.verdicts = run.verdicts ++ [(packet, false)] ∧
        run'.holder = run.holder) ∨
      ∃ ref, entryFor run.g packet.srcAddr = some ref ∧
        run'.g.dup = update run.g.dup ref ⟨packet.apsCounter, 3⟩ ∧
        run'.verdicts = run.verdicts ++ [(packet, decide (run.g.Running ref ∧
            (run.g.dup ref).counter = packet.apsCounter))] ∧
        run'.holder =
          update run.holder ref (some packet.device) := by
  obtain ⟨⟨g, isDup⟩, hcheck, rfl⟩ := map_eq_some_iff.mp hreceive
  obtain ⟨⟨addr, ret⟩, hfind, hresult⟩ := bind_eq_some_iff.mp hcheck
  have hentry : entryFor run.g packet.srcAddr = ret.toOption :=
    (zbAddressByShort_create hfind).symm
  cases ret with
  | error err =>
    simp only [some.injEq, Prod.mk.injEq] at hresult
    obtain ⟨rfl, rfl⟩ := hresult
    left
    simp [hentry, Except.toOption]
  | ok ref =>
    simp only [some.injEq, Prod.mk.injEq] at hresult
    obtain ⟨rfl, rfl⟩ := hresult
    right
    refine ⟨ref, hentry, rfl, rfl, ?_⟩
    simp [hentry, Except.toOption]

def Sound (run : ApsDupRun D) : Prop :=
  ∀ before packet after, run.verdicts = before ++ (packet, true) :: after →
    ∃ earlier verdict, (earlier, verdict) ∈ before ∧ earlier.device = packet.device ∧
      earlier.apsCounter = packet.apsCounter

structure HoldsPackets (run : ApsDupRun D) : Prop where
  sound : run.Sound
  held : ∀ ref, run.g.Running ref → ∃ earlier verdict, (earlier, verdict) ∈ run.verdicts ∧
      run.holder ref = some earlier.device ∧
      (run.g.dup ref).counter = earlier.apsCounter

theorem Sound.append {isDup : Bool} (hsound : run.Sound) (hverdicts : run'.verdicts =
      run.verdicts ++ [(packet, isDup)])
    (hdup : isDup = true → ∃ earlier verdict,
      (earlier, verdict) ∈ run.verdicts ∧ earlier.device = packet.device ∧
        earlier.apsCounter = packet.apsCounter) :
    run'.Sound := by
  intro before reported after hsplit
  rw [hverdicts] at hsplit
  rcases List.append_eq_append_iff.mp hsplit with
    ⟨middle, hbefore, hrest⟩ | ⟨middle, hbefore, hrest⟩
  · -- The last packet is the one reported.
    cases middle with
    | nil =>
      obtain ⟨hpair, _⟩ := List.cons.inj hrest
      obtain ⟨rfl, rfl⟩ := Prod.mk.inj hpair
      rw [hbefore, List.append_nil]
      exact hdup rfl
    | cons head tail =>
      obtain ⟨_, htail⟩ := List.cons.inj hrest
      simp at htail
  · cases middle with
    | nil =>
      obtain ⟨hpair, _⟩ := List.cons.inj hrest
      obtain ⟨rfl, rfl⟩ := Prod.mk.inj hpair
      rw [List.append_nil] at hbefore
      rw [← hbefore]
      exact hdup rfl
    | cons head tail =>
      obtain ⟨rfl, _⟩ := List.cons.inj hrest
      exact hsound before reported tail hbefore

theorem HoldsPackets.receive (hholds : run.HoldsPackets)
    (hown : ∀ ref, entryFor run.g packet.srcAddr = some ref →
      run.g.Running ref → (run.g.dup ref).counter = packet.apsCounter →
        run.holder ref = some packet.device)
    (hreceive : run.receive packet = some run') : run'.HoldsPackets := by
  rcases receive_eq_some hreceive with ⟨_, hdup, hverdicts, hholder⟩ |
    ⟨ref, hentry, hdup, hverdicts, hholder⟩
  · refine ⟨hholds.sound.append hverdicts (by simp), ?_⟩
    intro ref hrunning
    rw [ApsDupGlobals.Running, hdup] at hrunning
    obtain ⟨earlier, verdict, hmem, hdevice, hcounter⟩ := hholds.held ref hrunning
    refine ⟨earlier, verdict, ?_, ?_, ?_⟩
    · rw [hverdicts]
      exact List.mem_append_left _ hmem
    · rw [hholder, hdevice]
    · rw [hdup, hcounter]
  · constructor
    · refine hholds.sound.append hverdicts ?_
      intro hreported
      obtain ⟨hrunning, hcounter⟩ := of_decide_eq_true hreported
      obtain ⟨earlier, verdict, hmem, hdevice, hheld⟩ := hholds.held ref hrunning
      have hsame := hown ref hentry hrunning hcounter
      rw [hdevice, some.injEq] at hsame
      exact ⟨earlier, verdict, hmem, hsame, hheld.symm.trans hcounter⟩
    · intro other hrunning
      rw [hverdicts, hholder, hdup]
      by_cases hother : other = ref
      · subst hother
        refine ⟨packet, _, List.mem_append_right _ (List.mem_singleton.mpr rfl), ?_, ?_⟩
        · rw [update_self]
        · rw [update_self]
      · rw [ApsDupGlobals.Running, hdup, update_of_ne hother] at hrunning
        obtain ⟨earlier, verdict, hmem, hdevice, hcounter⟩ := hholds.held other hrunning
        rw [update_of_ne hother, update_of_ne hother]
        exact ⟨earlier, verdict, List.mem_append_left _ hmem, hdevice, hcounter⟩

theorem HoldsPackets.setAddr (hholds : run.HoldsPackets) (addr : AddrGlobals) :
    (run.setAddr addr).HoldsPackets :=
  ⟨hholds.sound, hholds.held⟩

theorem HoldsPackets.tick {g : ApsDupGlobals}
    (hholds : run.HoldsPackets) (htick : run.g.zbApsCheckTimerCb = some g) :
    HoldsPackets { run with g } := by
  refine ⟨hholds.sound, ?_⟩
  intro ref hrunning
  have hentry := ApsDupGlobals.zbApsCheckTimerCb_entry htick ref
  have hbefore : run.g.Running ref := by
    rcases hentry with heq | haged
    · rwa [ApsDupGlobals.Running, heq] at hrunning
    · rw [ApsDupGlobals.Running, haged] at hrunning
      exact ApsDup.clock_of_aged hrunning
  have hcounter : (g.dup ref).counter = (run.g.dup ref).counter := by
    rcases hentry with heq | haged
    · rw [heq]
    · rw [haged, ApsDup.aged_counter]
  obtain ⟨earlier, verdict, hmem, hdevice, hheld⟩ := hholds.held ref hbefore
  exact ⟨earlier, verdict, hmem, hdevice, hcounter.trans hheld⟩

theorem holdsPackets_start : (start : ApsDupRun D).HoldsPackets where
  sound before packet after hsplit := by simp [start] at hsplit
  held ref hrunning := absurd rfl hrunning

end ApsDupRun

/-- A packet which meets its counter in a running entry meets that of its own
device, and the entry has not been deleted and created anew since. -/
def ApsDupEvent.MeetsOwn {D : Type} (run : ApsDupRun D) : ApsDupEvent D → Prop
  | .packet received =>
      ∀ ref, ApsDupRun.entryFor run.g received.srcAddr = some ref →
        run.g.Running ref → (run.g.dup ref).counter = received.apsCounter →
          run.freed ref = false ∧ run.holder ref = some received.device
  | _ => True

instance {D : Type} [DecidableEq D] (run : ApsDupRun D)
    (event : ApsDupEvent D) : Decidable (event.MeetsOwn run) :=
  match event with
  | .packet packet =>
      inferInstanceAs (Decidable (∀ ref,
        ApsDupRun.entryFor run.g packet.srcAddr = some ref →
          run.g.Running ref → (run.g.dup ref).counter = packet.apsCounter →
            run.freed ref = false ∧ run.holder ref = some packet.device))
  | .tick | .address _ | .leave _ => inferInstanceAs (Decidable True)

theorem ApsDupRun.HoldsPackets.step
    {D : Type} {run run' : ApsDupRun D} {event : ApsDupEvent D}
    (hholds : run.HoldsPackets) (hown : event.MeetsOwn run)
    (hstep : run.step event = some run') : run'.HoldsPackets := by
  cases event with
  | packet packet =>
    refine hholds.receive (fun ref hentry hrunning hcounter => ?_) hstep
    exact (hown ref hentry hrunning hcounter).2
  | tick =>
    obtain ⟨g, htick, rfl⟩ := map_eq_some_iff.mp hstep
    exact hholds.tick htick
  | address call =>
    obtain ⟨addr, _, rfl⟩ := map_eq_some_iff.mp hstep
    exact hholds.setAddr addr
  | leave shortAddress =>
    obtain ⟨addr, _, _, ⟨_, _, rfl⟩ | ⟨ref, _, rfl⟩⟩ := ApsDupRun.leave_eq_some hstep
    · exact hholds.setAddr addr
    · exact hholds.setAddr _

def reusedEntryRun : List (ApsDupEvent ℕ) :=
  [.packet ⟨1, 5, 7⟩, .leave 5, .packet ⟨2, 6, 7⟩]

end Zboss
