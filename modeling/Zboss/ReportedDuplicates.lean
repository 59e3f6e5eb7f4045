import Zboss.DuplicateFilter
import Mathlib.Data.List.Find

/-!
# Completeness of the duplicate filter

An entry remembers the counter of the latest packet of its source, and no
other one.  Up to the third tick after that packet a packet with the same
counter is reported, whatever other sources send in between.
-/

namespace Zboss

open Option List PackedArray TransitionSystem

theorem find?_insertIdx {α : Type*} {p : α → Bool} {x : α} (hx : p x = false)
    (xs : List α) (i : ℕ) : (xs.insertIdx i x).find? p = xs.find? p := by
  induction xs generalizing i with
  | nil =>
    cases i with
    | zero => simp [hx]
    | succ i => rfl
  | cons head rest ih =>
    cases i with
    | zero => simp [hx]
    | succ i => rw [insertIdx_succ_cons, List.find?_cons, List.find?_cons, ih]

section Search

variable {g g' : AddrGlobals} {compressed : Option IeeeAddrCompressed} {shortAddr i : ℕ}

section

variable (hlists : ListsUsed g)

include hlists

theorem AddedAt.shortSearch_other {s : ℕ} (hadded : AddedAt g compressed shortAddr i g')
    (hs : shortAddr ≠ s) : shortSearch g' s = shortSearch g s := by
  have hfresh : i ∉ sortedRefs g :=
    fun hmem => hadded.not_hasShort (hlists.hasShort i hmem)
  have hsame : ∀ ref ∈ sortedRefs g,
      ((g'.addrMap ref).addr == s) = ((g.addrMap ref).addr == s) := by
    intro ref href
    have hne : ref ≠ i := by
      rintro rfl
      exact hfresh href
    rw [(hadded.others ref hne).addr]
  rw [shortSearch_eq_find hlists.indexes,
    shortSearch_eq_find (hlists.addedAt hadded).indexes,
    ← List.find?_congr hsame]
  rcases hadded.indexed with ⟨_, hsorted, hn⟩ | ⟨_, indexed, hadd, hsorted, hn⟩
  · rw [sortedRefs, sortedRefs, hsorted, hn]
  · have hentry := hlists.indexes.addrAddEntry hfresh compressed shortAddr
    have hle := (addShortSortedIndex_spec hentry shortAddr).1
    have hlist := sortedRefs_addShortSorted hle hadd
    have hbefore : sortedRefs (addrAddEntry g compressed shortAddr i) =
        sortedRefs g := by
      have hclock := sameTable_clockTick g
      change live (clockTick g).shortSorted (clockTick g).nSortedElements = _
      rw [hclock.shortSorted, hclock.nSortedElements]
      rfl
    have hafter : sortedRefs g' = sortedRefs indexed := by
      rw [sortedRefs, sortedRefs, hsorted, hn]
    rw [hafter, hlist, hbefore]
    apply find?_insertIdx
    simpa [hadded.addr] using hs

theorem AddedAt.shortSearch_self (hadded : AddedAt g compressed shortAddr i g')
    (hknown : shortAddr ≠ unknownShort)
    (hnone : shortSearch g shortAddr = none) :
    shortSearch g' shortAddr = some i := by
  have hfresh : i ∉ sortedRefs g :=
    fun hmem => hadded.not_hasShort (hlists.hasShort i hmem)
  have hindex := hlists.indexes.addedAt hfresh hadded
  cases hsearch : shortSearch g' shortAddr with
  | none =>
    exact absurd hadded.addr (shortSearch_eq_none hindex hsearch (Or.inr ⟨rfl, hknown⟩))
  | some ref =>
    obtain ⟨hmem, haddr⟩ := shortSearch_eq_some hsearch
    rcases (hindex.mem_iff ref).mp hmem with hbefore | ⟨rfl, _⟩
    · have hne : ref ≠ i := by
        rintro rfl
        exact hfresh hbefore
      rw [(hadded.others ref hne).addr] at haddr
      exact absurd haddr (shortSearch_eq_none hlists.indexes hnone hbefore)
    · rfl

theorem ListsUsed.room (hi : i < ieeeAddrTableSize)
    (hunused : (g.addrMap i).used = false) :
    g.nSortedElements < ieeeAddrTableSize := by
  have hfresh : i ∉ sortedRefs g := by
    intro hmem
    have hused := (hlists.hasShort i hmem).2.1
    rw [hunused] at hused
    contradiction
  have hnodup : (i :: sortedRefs g).Nodup := nodup_cons.mpr ⟨hfresh, hlists.indexes.nodup⟩
  have hsubset : i :: sortedRefs g ⊆ List.range ieeeAddrTableSize := by
    intro ref href
    rcases mem_cons.mp href with rfl | hmem
    · exact mem_range.mpr hi
    · exact mem_range.mpr (hlists.hasShort ref hmem).1
  have hlength := (List.Nodup.subperm hnodup hsubset).length_le
  exact Nat.lt_of_succ_le (by simpa [sortedRefs] using hlength)

theorem ListsUsed.addrAdd_isSome (compressed : Option IeeeAddrCompressed) (shortAddr : ℕ) :
    ∃ result, addrAdd g compressed shortAddr = some result := by
  unfold addrAdd
  cases hfree : freeEntry g compressed with
  | none => exact ⟨_, rfl⟩
  | some i =>
    obtain ⟨hi, hunused⟩ := freeEntry_spec hfree
    have hclock := sameTable_clockTick g
    have hroom : (addrAddEntry g compressed shortAddr i).nSortedElements <
        ieeeAddrTableSize := by
      rw [show (addrAddEntry g compressed shortAddr i).nSortedElements =
        g.nSortedElements from hclock.nSortedElements]
      exact hlists.room hi hunused
    have hfree' : ((addrAddEntry g compressed shortAddr i).addrMap i).used = false := by
      simpa [addrAddEntry, AddrGlobals.setEntry, (hclock.entry i).used] using hunused
    have hindexed : ∃ indexed,
        addrAddSorted (addrAddEntry g compressed shortAddr i) i shortAddr =
          some indexed := by
      unfold addrAddSorted
      by_cases hshort : shortAddr = unknownShort
      · rw [if_neg (by simpa using hshort)]
        exact ⟨_, rfl⟩
      · rw [if_pos hshort, hfree', if_neg Bool.false_ne_true, addShortSorted, if_pos hroom]
        exact ⟨_, rfl⟩
    obtain ⟨indexed, hindexed⟩ := hindexed
    refine ⟨_, bind_eq_some_iff.mpr ⟨indexed, hindexed, rfl⟩⟩

theorem ListsUsed.zbAddressByShort_isSome (shortAddress : ℕ) :
    ∃ result, zbAddressByShort g shortAddress true false = some result := by
  unfold zbAddressByShort
  cases hsearch : shortSearch g shortAddress with
  | some ref => exact ⟨_, rfl⟩
  | none =>
    obtain ⟨result, hadd⟩ := hlists.addrAdd_isSome none shortAddress
    exact ⟨_, bind_eq_some_iff.mpr ⟨result, hadd, rfl⟩⟩

end

end Search

namespace ApsDupRun

variable {D : Type} {run run' : ApsDupRun D} {packet : ApsPacket D}
  {srcAddr : ℕ} {apsCounter : UInt8} {ref spent : ℕ}

theorem receive_isSome (hlists : ListsUsed run.g.addr) (packet : ApsPacket D) :
    ∃ run', run.receive packet = some run' := by
  obtain ⟨⟨addr, ret⟩, hfind⟩ := hlists.zbAddressByShort_isSome packet.srcAddr
  have hcheck : ∃ result,
      run.g.apsCheckDups packet.srcAddr packet.apsCounter = some result := by
    unfold ApsDupGlobals.apsCheckDups
    rw [hfind]
    cases ret with
    | error err => exact ⟨_, rfl⟩
    | ok ref => exact ⟨_, rfl⟩
  obtain ⟨result, hcheck⟩ := hcheck
  exact ⟨_, map_eq_some_iff.mpr ⟨result, hcheck, rfl⟩⟩

/-! ## What an entry remembers -/

structure Remembers (run : ApsDupRun D) (srcAddr : ℕ) (apsCounter : UInt8)
    (ref spent : ℕ) : Prop where
  counts : CountsUsed run.g.addr
  found : shortSearch run.g.addr srcAddr = some ref
  counter : (run.g.dup ref).counter = apsCounter
  clock : 3 ≤ (run.g.dup ref).clock.val + spent

theorem shortSearch_receive
    (hlists : ListsUsed run.g.addr) (hother : packet.srcAddr ≠ srcAddr)
    (hreceive : run.receive packet = some run') :
    shortSearch run'.g.addr srcAddr = shortSearch run.g.addr srcAddr := by
  obtain ⟨ret, hfind⟩ := receive_addr hreceive
  rcases zbAddressByShort_eq_some hfind with ⟨found, _, _, hlock⟩ |
    ⟨_, hcreate, _⟩ | ⟨_, _, g₂, ret', hadd, hlock⟩
  · obtain ⟨_, hsame | ⟨_, hlocked, _⟩⟩ := lockResult_eq_some hlock
    · rw [hsame]
      exact (sameTable_markClock run.g.addr found).shortSearch srcAddr
    · contradiction
  · contradiction
  · obtain ⟨_, hsame | ⟨_, hlocked, _⟩⟩ := lockResult_eq_some hlock
    · rw [hsame]
      rcases addrAdd_eq_some hadd with ⟨_, _, rfl⟩ | ⟨i, _, hadded⟩
      · rfl
      · exact hadded.shortSearch_other hlists hother
    · contradiction

theorem entryFor_cases (hentry : entryFor run.g packet.srcAddr = some ref) :
    shortSearch run.g.addr packet.srcAddr = some ref ∨
      (shortSearch run.g.addr packet.srcAddr = none ∧
        freeEntry run.g.addr none = some ref) := by
  unfold entryFor at hentry
  cases hsearch : shortSearch run.g.addr packet.srcAddr with
  | some found =>
    rw [hsearch] at hentry
    exact Or.inl hentry
  | none =>
    rw [hsearch] at hentry
    exact Or.inr ⟨rfl, hentry⟩

theorem shortSearch_receive_self
    (hlists : ListsUsed run.g.addr) (hknown : packet.srcAddr ≠ unknownShort)
    (hentry : entryFor run.g packet.srcAddr = some ref)
    (hreceive : run.receive packet = some run') :
    shortSearch run'.g.addr packet.srcAddr = some ref := by
  obtain ⟨ret, hfind⟩ := receive_addr hreceive
  rcases entryFor_cases hentry with hsearch | ⟨hsearch, hfree⟩
  · rcases zbAddressByShort_eq_some hfind with ⟨found, hfound, _, hlock⟩ |
      ⟨hnone, _⟩ | ⟨hnone, _⟩
    · obtain ⟨_, hsame | ⟨_, hlocked, _⟩⟩ := lockResult_eq_some hlock
      · rw [hsame, (sameTable_markClock _ found).shortSearch]
        exact hsearch
      · contradiction
    · rw [hsearch] at hnone
      contradiction
    · rw [hsearch] at hnone
      contradiction
  · rcases zbAddressByShort_eq_some hfind with ⟨found, hfound, _⟩ |
      ⟨_, hcreate, _⟩ | ⟨_, _, g₂, ret', hadd, hlock⟩
    · rw [hsearch] at hfound
      contradiction
    · contradiction
    · obtain ⟨_, hsame | ⟨_, hlocked, _⟩⟩ := lockResult_eq_some hlock
      · rcases addrAdd_eq_some hadd with ⟨hfull, _⟩ | ⟨i, _, hadded⟩
        · rw [hfull] at hfree
          contradiction
        · have hi : i = ref := some.inj (hadded.free.symm.trans hfree)
          rw [hsame, ← hi]
          exact hadded.shortSearch_self hlists hknown hsearch
      · contradiction

theorem remembers_of_receive
    (hcounts : CountsUsed run.g.addr) (hknown : packet.srcAddr ≠ unknownShort)
    (hentry : entryFor run.g packet.srcAddr = some ref)
    (hreceive : run.receive packet = some run') :
    run'.Remembers packet.srcAddr packet.apsCounter ref 0 := by
  obtain ⟨_, hfind⟩ := receive_addr hreceive
  rcases receive_eq_some hreceive with ⟨hnone, _⟩ | ⟨other, hother, hdup, _⟩
  · rw [hentry] at hnone
    contradiction
  obtain rfl := some.inj (hentry.symm.trans hother)
  refine ⟨hcounts.zbAddressByShort hfind,
    shortSearch_receive_self hcounts.lists hknown hentry hreceive, ?_, ?_⟩
  · rw [hdup, Function.update_self]
  · rw [hdup, Function.update_self]
    exact Nat.le_refl 3

theorem Remembers.receive (hremembers : run.Remembers srcAddr apsCounter ref spent)
    (hother : packet.srcAddr ≠ srcAddr)
    (hreceive : run.receive packet = some run') :
    run'.Remembers srcAddr apsCounter ref spent := by
  have hcounts := hremembers.counts
  obtain ⟨hshort, haddr⟩ := hcounts.shortSearch_eq_some hremembers.found
  obtain ⟨_, hfind⟩ := receive_addr hreceive
  have hkept : run'.g.dup ref = run.g.dup ref := by
    rcases receive_eq_some hreceive with ⟨_, hdup, _⟩ | ⟨used, hentry, hdup, _⟩
    · rw [hdup]
    · have hne : ref ≠ used := by
        rintro rfl
        rcases entryFor_cases hentry with hsearch | ⟨_, hfree⟩
        · obtain ⟨_, haddr'⟩ := hcounts.shortSearch_eq_some hsearch
          exact hother (haddr'.symm.trans haddr)
        · have hunused := (freeEntry_spec hfree).2
          rw [hshort.2.1] at hunused
          contradiction
      rw [hdup, Function.update_of_ne hne]
  refine ⟨hcounts.zbAddressByShort hfind, ?_, ?_, ?_⟩
  · rw [shortSearch_receive hcounts.lists hother hreceive]
    exact hremembers.found
  · rw [hkept]
    exact hremembers.counter
  · rw [hkept]
    exact hremembers.clock

theorem clock_aged (ent : ApsDup) : ent.clock.val ≤ ent.aged.clock.val + 1 := by
  unfold ApsDup.aged
  split
  · dsimp only
    omega
  · exact Nat.le_succ _

theorem Remembers.tick {g : ApsDupGlobals}
    (hremembers : run.Remembers srcAddr apsCounter ref spent)
    (htick : run.g.zbApsCheckTimerCb = some g) :
    Remembers { run with g } srcAddr apsCounter ref (spent + 1) := by
  have haddr := ApsDupGlobals.zbApsCheckTimerCb_addr htick
  have hentry := ApsDupGlobals.zbApsCheckTimerCb_entry htick ref
  have hclock := hremembers.clock
  refine ⟨?_, ?_, ?_, ?_⟩
  · rw [haddr]
    exact hremembers.counts
  · rw [haddr]
    exact hremembers.found
  · rcases hentry with heq | haged
    · rw [heq]
      exact hremembers.counter
    · rw [haged, ApsDup.aged_counter]
      exact hremembers.counter
  · rcases hentry with heq | haged
    · rw [heq]
      omega
    · have hle := clock_aged (run.g.dup ref)
      rw [haged]
      omega

theorem Remembers.reported
    (hremembers : run.Remembers packet.srcAddr packet.apsCounter ref spent)
    (hspent : spent < 3) :
    ∃ run', run.receive packet = some run' ∧
      run'.verdicts = run.verdicts ++ [(packet, true)] := by
  obtain ⟨run', hreceive⟩ := receive_isSome hremembers.counts.lists packet
  refine ⟨run', hreceive, ?_⟩
  have hentry : entryFor run.g packet.srcAddr = some ref := by
    rw [entryFor, hremembers.found]
    rfl
  have hrunning : run.g.Running ref := by
    intro hzero
    have hclock := hremembers.clock
    rw [hzero] at hclock
    have hval : ((0 : Fin 4) : ℕ) = 0 := rfl
    omega
  rcases receive_eq_some hreceive with ⟨hnone, _⟩ | ⟨found, hfound, _, hverdicts, _⟩
  · rw [hentry] at hnone
    contradiction
  obtain rfl := some.inj (hentry.symm.trans hfound)
  rw [hverdicts, decide_eq_true ⟨hrunning, hremembers.counter⟩]

end ApsDupRun

def ApsDupEvent.FromOthers {D : Type} (srcAddr : ℕ) : ApsDupEvent D → Prop
  | .packet received => received.srcAddr ≠ srcAddr
  | .tick => True
  | .address _ => False
  | .leave _ => False

def ApsDupEvent.ticks {D : Type} : ApsDupEvent D → ℕ
  | .tick => 1
  | _ => 0

theorem ApsDupRun.Remembers.run {D : Type} {state : ApsDupRun D}
    {srcAddr : ℕ} {apsCounter : UInt8} {ref spent : ℕ}
    {events : List (ApsDupEvent D)}
    (hremembers : state.Remembers srcAddr apsCounter ref spent)
    (hothers : ∀ event ∈ events, event.FromOthers srcAddr) :
    ∃ last, TransitionSystem.run ApsDupRun.step state events = some last ∧
      last.Remembers srcAddr apsCounter ref
        (spent + (events.map ApsDupEvent.ticks).sum) := by
  induction events generalizing state spent with
  | nil => exact ⟨state, rfl, hremembers⟩
  | cons event rest ih =>
    have hrest : ∀ event ∈ rest, event.FromOthers srcAddr :=
      fun event hmem => hothers event (mem_cons_of_mem _ hmem)
    have hnext : ∃ next, state.step event = some next ∧
        next.Remembers srcAddr apsCounter ref (spent + event.ticks) := by
      have hevent := hothers event mem_cons_self
      cases event with
      | packet received =>
        obtain ⟨next, hreceive⟩ :=
          ApsDupRun.receive_isSome hremembers.counts.lists received
        exact ⟨next, hreceive, hremembers.receive hevent hreceive⟩
      | tick =>
        obtain ⟨_, g, htick, _⟩ := ApsDupGlobals.scansUsed_of_countsUsed hremembers.counts
        exact ⟨{ state with g }, map_eq_some_iff.mpr ⟨g, htick, rfl⟩,
          hremembers.tick htick⟩
      | address call => exact hevent.elim
      | leave shortAddress => exact hevent.elim
    obtain ⟨next, hstep, hnext⟩ := hnext
    obtain ⟨last, hlast, hresult⟩ := ih hnext hrest
    refine ⟨last, run_cons_eq_some.mpr ⟨next, hstep, hlast⟩, ?_⟩
    rw [map_cons, sum_cons, ← Nat.add_assoc]
    exact hresult

/-- A packet with the counter of the latest packet of its source is reported,
with packets of other sources and at most two ticks between them, provided that
the source has an entry or can get one. -/
theorem reported_of_latest {D : Type} (before between : List (ApsDupEvent D))
    (first again : ApsPacket D) (state : ApsDupRun D)
    (hbalanced : AlongRun ApsDupRun.step
      (fun run event => event.Balanced run) ApsDupRun.start before)
    (hbefore : run ApsDupRun.step ApsDupRun.start before = some state)
    (hknown : first.srcAddr ≠ unknownShort)
    (hentry : ApsDupRun.entryFor state.g first.srcAddr ≠ none)
    (hothers : ∀ event ∈ between, event.FromOthers first.srcAddr)
    (hticks : (between.map ApsDupEvent.ticks).sum < 3)
    (hsource : again.srcAddr = first.srcAddr)
    (hcounter : again.apsCounter = first.apsCounter) :
    ∃ waiting last, run ApsDupRun.step state (.packet first :: between) = some waiting ∧
        waiting.step (.packet again) = some last ∧
        last.verdicts = waiting.verdicts ++ [(again, true)] := by
  have hcounts : CountsUsed state.g.addr :=
    @invariant_of_run _ _ _ _ (fun run : ApsDupRun D => CountsUsed run.g.addr)
      (fun _ _ _ hcounts hcall hstep => hcounts.step hcall hstep)
      _ _ _ countsUsed_zeroed hbalanced hbefore
  obtain ⟨ref, href⟩ := ne_none_iff_exists'.mp hentry
  obtain ⟨started, hreceive⟩ := ApsDupRun.receive_isSome hcounts.lists first
  have hremembers := ApsDupRun.remembers_of_receive hcounts hknown href hreceive
  obtain ⟨waiting, hwaiting, hkept⟩ := hremembers.run hothers
  rw [← hsource, ← hcounter, Nat.zero_add] at hkept
  obtain ⟨last, hlast, hverdicts⟩ := hkept.reported hticks
  exact ⟨waiting, last, run_cons_eq_some.mpr ⟨started, hreceive, hwaiting⟩,
    hlast, hverdicts⟩

/-- A packet of another source and two ticks stand between the packets. -/
theorem reported_of_latest_twoTicks : ∃ waiting last, run ApsDupRun.step ApsDupRun.start
          ([.packet ⟨(), 5, 7⟩, .tick, .packet ⟨(), 6, 8⟩, .tick] :
            List (ApsDupEvent Unit)) = some waiting ∧
        waiting.step (.packet ⟨(), 5, 7⟩) = some last ∧
        last.verdicts = waiting.verdicts ++ [(⟨(), 5, 7⟩, true)] :=
  reported_of_latest [] [.tick, .packet ⟨(), 6, 8⟩, .tick] ⟨(), 5, 7⟩
    ⟨(), 5, 7⟩ ApsDupRun.start trivial rfl (by decide) (by decide)
    (by simp [ApsDupEvent.FromOthers]) (by decide) rfl rfl

def ApsDupRun.ReportsRepeated {D : Type} (run : ApsDupRun D) : Prop :=
  ∀ before packet verdict after, run.verdicts = before ++ (packet, verdict) :: after →
      (∃ earlier verdict', (earlier, verdict') ∈ before ∧
        earlier.srcAddr = packet.srcAddr ∧
        earlier.apsCounter = packet.apsCounter) →
      verdict = true

def ApsDupRun.missesLast (run : ApsDupRun Unit) : Bool :=
  match run.verdicts.reverse with
  | (packet, false) :: before =>
      before.any fun earlier => earlier.1.srcAddr == packet.srcAddr &&
        earlier.1.apsCounter == packet.apsCounter
  | _ => false

theorem ApsDupRun.misses_of_missesLast {run : ApsDupRun Unit}
    (hmisses : run.missesLast = true) : ¬ run.ReportsRepeated := by
  intro hreports
  unfold missesLast at hmisses
  split at hmisses
  · rename_i packet before hreverse
    have hverdicts : run.verdicts = before.reverse ++ [(packet, false)] := by
      rw [← reverse_reverse run.verdicts, hreverse, reverse_cons]
    obtain ⟨⟨earlier, verdict⟩, hmem, hsame⟩ := any_eq_true.mp hmisses
    simp only [Bool.and_eq_true, beq_iff_eq] at hsame
    have hfalse := hreports before.reverse packet false [] hverdicts
      ⟨earlier, verdict, mem_reverse.mpr hmem, hsame⟩
    contradiction
  · contradiction

def newerPacketRun : List (ApsDupEvent Unit) :=
  [.packet ⟨(), 5, 1⟩, .packet ⟨(), 5, 2⟩, .packet ⟨(), 5, 1⟩]

def manySourcesRun : List (ApsDupEvent Unit) :=
  (List.range (ieeeAddrTableSize + 1)).map (fun src => .packet ⟨(), src, 1⟩) ++
    [.packet ⟨(), ieeeAddrTableSize, 1⟩]

def unknownSourceRun : List (ApsDupEvent Unit) :=
  [.packet ⟨(), unknownShort, 1⟩, .packet ⟨(), unknownShort, 1⟩]

/-- A packet is not reported after a newer one of its source, nor where its
source finds the table full or has no short address. -/
theorem not_reportsRepeated :
    (∃ last, run ApsDupRun.step ApsDupRun.start newerPacketRun = some last ∧
        ¬ last.ReportsRepeated) ∧
      (∃ last, run ApsDupRun.step ApsDupRun.start manySourcesRun = some last ∧
        ¬ last.ReportsRepeated) ∧
      ∃ last, run ApsDupRun.step ApsDupRun.start unknownSourceRun = some last ∧
        ¬ last.ReportsRepeated := by
  have hmissed : ∀ events,
      (run ApsDupRun.step ApsDupRun.start events).map ApsDupRun.missesLast = some true →
      ∃ last, run ApsDupRun.step ApsDupRun.start events = some last ∧
        ¬ last.ReportsRepeated := by
    intro events hresult
    obtain ⟨last, hlast, hmisses⟩ := map_eq_some_iff.mp hresult
    exact ⟨last, hlast, ApsDupRun.misses_of_missesLast hmisses⟩
  refine ⟨hmissed _ ?_, hmissed _ ?_, hmissed _ ?_⟩
  · decide +kernel
  · decide +kernel
  · decide +kernel

end Zboss
