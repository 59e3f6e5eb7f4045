import Zboss.ExtendedNeighborTable

/-!
# Rows of the base neighbor table

The table and the array which points into it belong together: a reference
points to a used row of its own, and each used row is pointed to.  Packing the
table before a discovery keeps this as long as the loop does not run into the
remains of an earlier one.
-/

namespace Zboss

open Function Option TransitionSystem

structure RowsSound (nt : NeighborTbl) : Prop where
  size : nt.baseNeighborSize ≤ neighborTableSize
  room : nt.baseNeighborUsed ≤ nt.baseNeighborSize
  linked : ∀ ref, nt.addrToNeighbor ref ≠ noNeighbor →
    nt.addrToNeighbor ref < nt.baseNeighborUsed ∧
      (nt.baseNeighbor (nt.addrToNeighbor ref)).used = true ∧
      (nt.baseNeighbor (nt.addrToNeighbor ref)).addrRef = ref
  genuine : ∀ n, n < nt.baseNeighborUsed → (nt.baseNeighbor n).used = true →
    nt.addrToNeighbor (nt.baseNeighbor n).addrRef = n

def SameReferences (nt nt' : NeighborTbl) : Prop :=
  ∀ ref, nt'.addrToNeighbor ref = noNeighbor ↔ nt.addrToNeighbor ref = noNeighbor

theorem SameReferences.trans {nt nt' nt'' : NeighborTbl}
    (hfirst : SameReferences nt nt') (hsecond : SameReferences nt' nt'') :
    SameReferences nt nt'' :=
  fun ref => (hsecond ref).trans (hfirst ref)

theorem RowsSound.row_ne_noNeighbor {nt : NeighborTbl} (hsound : RowsSound nt) {n : ℕ}
    (hn : n < nt.baseNeighborUsed) : n ≠ noNeighbor := by
  have hsize := hsound.size
  have hroom := hsound.room
  simp only [neighborTableSize] at hsize
  simp only [noNeighbor]
  omega

theorem rowsSound_init : RowsSound zbNwkNeighborInit :=
  ⟨Nat.le_refl _, Nat.zero_le _, fun _ href => absurd rfl href,
    fun _ hn => absurd hn (Nat.not_lt_zero _)⟩

section Rows

variable {nt : NeighborTbl} {ref n : ℕ}

section

variable (hsound : RowsSound nt)

include hsound

theorem RowsSound.addRow (habsent : nt.addrToNeighbor ref = noNeighbor)
    (hroom : nt.baseNeighborUsed < nt.baseNeighborSize) {ent : NeighborTblEnt}
    (hused : ent.used = true) (href : ent.addrRef = ref) :
    RowsSound
        { (nt.setNeighbor ref nt.baseNeighborUsed).setRow nt.baseNeighborUsed ent with
          baseNeighborUsed := nt.baseNeighborUsed + 1 } := by
  constructor
  · exact hsound.size
  · exact hroom
  · intro other hother
    dsimp only [NeighborTbl.setRow, NeighborTbl.setNeighbor] at hother ⊢
    by_cases heq : other = ref
    · rw [heq, update_self, update_self]
      exact ⟨Nat.lt_succ_self _, hused, href⟩
    · rw [update_of_ne heq] at hother ⊢
      obtain ⟨hlt, hlinked⟩ := hsound.linked other hother
      rw [update_of_ne (Nat.ne_of_lt hlt)]
      exact ⟨Nat.lt_succ_of_lt hlt, hlinked⟩
  · intro m hm hmused
    dsimp only [NeighborTbl.setRow, NeighborTbl.setNeighbor] at hm hmused ⊢
    by_cases heq : m = nt.baseNeighborUsed
    · rw [heq, update_self, href, update_self]
    · rw [update_of_ne heq] at hmused ⊢
      have hlt : m < nt.baseNeighborUsed := by omega
      have hgenuine := hsound.genuine m hlt hmused
      have hne : (nt.baseNeighbor m).addrRef ≠ ref := by
        intro hsame
        rw [hsame, habsent] at hgenuine
        exact hsound.row_ne_noNeighbor hlt hgenuine.symm
      rw [update_of_ne hne]
      exact hgenuine

theorem RowsSound.rewriteRow (hpresent : nt.addrToNeighbor ref ≠ noNeighbor)
    {ent : NeighborTblEnt} (hused : ent.used = true)
    (href : ent.addrRef = ref) :
    RowsSound (nt.setRow (nt.addrToNeighbor ref) ent) := by
  constructor
  · exact hsound.size
  · exact hsound.room
  · intro other hother
    dsimp only [NeighborTbl.setRow] at hother ⊢
    obtain ⟨hlt, hlinked⟩ := hsound.linked other hother
    refine ⟨hlt, ?_⟩
    by_cases heq : nt.addrToNeighbor other = nt.addrToNeighbor ref
    · have hsame : other = ref := by
        rw [← hlinked.2, heq, (hsound.linked ref hpresent).2.2]
      rw [heq, update_self, hsame]
      exact ⟨hused, href⟩
    · rw [update_of_ne heq]
      exact hlinked
  · intro m hm hmused
    dsimp only [NeighborTbl.setRow] at hm hmused ⊢
    by_cases heq : m = nt.addrToNeighbor ref
    · rw [heq, update_self, href]
    · rw [update_of_ne heq] at hmused ⊢
      exact hsound.genuine m hm hmused

theorem RowsSound.dropRow (hpresent : nt.addrToNeighbor ref ≠ noNeighbor) :
    RowsSound ((nt.setNeighbor ref noNeighbor).setRow (nt.addrToNeighbor ref)
        { nt.baseNeighbor (nt.addrToNeighbor ref) with used := false }) := by
  obtain ⟨_, _, hownRef⟩ := hsound.linked ref hpresent
  constructor
  · exact hsound.size
  · exact hsound.room
  · intro other hother
    dsimp only [NeighborTbl.setRow, NeighborTbl.setNeighbor] at hother ⊢
    have hne : other ≠ ref := by
      intro heq
      rw [heq, update_self] at hother
      exact hother rfl
    rw [update_of_ne hne] at hother ⊢
    obtain ⟨hlt, hused, haddr⟩ := hsound.linked other hother
    have hrow : nt.addrToNeighbor other ≠ nt.addrToNeighbor ref := by
      intro heq
      exact hne (by rw [← haddr, heq, hownRef])
    rw [update_of_ne hrow]
    exact ⟨hlt, hused, haddr⟩
  · intro m hm hmused
    dsimp only [NeighborTbl.setRow, NeighborTbl.setNeighbor] at hm hmused ⊢
    by_cases heq : m = nt.addrToNeighbor ref
    · rw [heq, update_self] at hmused
      contradiction
    · rw [update_of_ne heq] at hmused ⊢
      have hgenuine := hsound.genuine m hm hmused
      have hne : (nt.baseNeighbor m).addrRef ≠ ref := by
        intro hsame
        exact heq (by rw [← hgenuine, hsame])
      rw [update_of_ne hne]
      exact hgenuine

theorem RowsSound.moveRow {i : ℕ} (hi : i < nt.baseNeighborUsed)
    (hused : (nt.baseNeighbor i).used = true) (hn : n < i)
    (hfree : (nt.baseNeighbor n).used = false) :
    RowsSound (nt.moveRow i n) ∧ SameReferences nt (nt.moveRow i n) := by
  have hown := hsound.genuine i hi hused
  have hne : n ≠ i := Nat.ne_of_lt hn
  constructor
  · constructor
    · exact hsound.size
    · exact hsound.room
    · intro other hother
      dsimp only [NeighborTbl.moveRow, NeighborTbl.setRow,
        NeighborTbl.setNeighbor] at hother ⊢
      by_cases heq : other = (nt.baseNeighbor i).addrRef
      · rw [heq, update_self, update_of_ne hne, update_self]
        exact ⟨Nat.lt_trans hn hi, hused, rfl⟩
      · rw [update_of_ne heq] at hother ⊢
        obtain ⟨hlt, hlinked⟩ := hsound.linked other hother
        have hi' : nt.addrToNeighbor other ≠ i := by
          intro hrow
          rw [hrow] at hlinked
          exact heq hlinked.2.symm
        have hn' : nt.addrToNeighbor other ≠ n := by
          intro hrow
          rw [hrow, hfree] at hlinked
          exact Bool.false_ne_true hlinked.1
        rw [update_of_ne hi', update_of_ne hn']
        exact ⟨hlt, hlinked⟩
    · intro m hm hmused
      dsimp only [NeighborTbl.moveRow, NeighborTbl.setRow,
        NeighborTbl.setNeighbor] at hm hmused ⊢
      by_cases hmi : m = i
      · rw [hmi, update_self] at hmused
        contradiction
      · rw [update_of_ne hmi] at hmused ⊢
        by_cases hmn : m = n
        · rw [hmn, update_self, update_self]
        · rw [update_of_ne hmn] at hmused ⊢
          have hgenuine := hsound.genuine m hm hmused
          have haddr : (nt.baseNeighbor m).addrRef ≠ (nt.baseNeighbor i).addrRef := by
            intro hsame
            rw [hsame, hown] at hgenuine
            exact hmi hgenuine.symm
          rw [update_of_ne haddr]
          exact hgenuine
  · intro other
    dsimp only [NeighborTbl.moveRow, NeighborTbl.setRow, NeighborTbl.setNeighbor]
    by_cases heq : other = (nt.baseNeighbor i).addrRef
    · rw [heq, update_self, hown]
      have hi' := hsound.row_ne_noNeighbor hi
      have hn' := hsound.row_ne_noNeighbor (Nat.lt_trans hn hi)
      exact ⟨fun h => absurd h hn', fun h => absurd h hi'⟩
    · rw [update_of_ne heq]

end

end Rows

/-! ## Packing -/

/-- The loop ends before the rows which were never added, or finds none of
them in use. -/
def PackSafe (nt : NeighborTbl) : Prop :=
  (∀ n, n < nt.baseNeighborUsed → (nt.baseNeighbor n).used = true) ∨
    ∀ n, n < nt.baseNeighborSize → nt.baseNeighborUsed ≤ n →
      (nt.baseNeighbor n).used = false

instance (nt : NeighborTbl) : Decidable (PackSafe nt) :=
  inferInstanceAs (Decidable (_ ∨ _))

/-- Before row `i`: the last `hole` rows are free, and so are those which were
never added. -/
structure PackInvariant (nt : NeighborTbl) (i : ℕ) (state : PackState) : Prop where
  sound : RowsSound state.nt
  same : SameReferences nt state.nt
  size : state.nt.baseNeighborSize = nt.baseNeighborSize
  used : state.nt.baseNeighborUsed = nt.baseNeighborUsed
  hole : state.hole ≤ i
  free : ∀ n, i ≤ n + state.hole → n < i → (state.nt.baseNeighbor n).used = false
  behind : ∀ n, n < nt.baseNeighborSize → nt.baseNeighborUsed ≤ n →
    (state.nt.baseNeighbor n).used = false

theorem PackInvariant.packRow {nt : NeighborTbl} {i : ℕ} {state : PackState}
    (hinvariant : PackInvariant nt i state) (hi : i < nt.baseNeighborSize) :
    PackInvariant nt (i + 1) (packRow state i) := by
  obtain ⟨hsound, hsame, hsize, hused, hhole, hfree, hbehind⟩ := hinvariant
  unfold Zboss.packRow
  by_cases hrow : (state.nt.baseNeighbor i).used = true
  · rw [if_pos hrow]
    have hadded : i < state.nt.baseNeighborUsed := by
      by_contra hge
      rw [hbehind i hi (by omega)] at hrow
      contradiction
    by_cases hzero : state.hole = 0
    · rw [if_neg (not_not.mpr hzero)]
      refine ⟨hsound, hsame, hsize, hused, ?_, ?_, hbehind⟩
      · exact Nat.le_succ_of_le hhole
      · intro n hge hlt
        dsimp only at hge
        omega
    · rw [if_pos hzero]
      obtain ⟨hsound', hsame'⟩ :=
        hsound.moveRow hadded hrow (show i - state.hole < i by omega)
          (hfree _ (by omega) (by omega))
      have hkept : ∀ n, n ≠ i - state.hole → (state.nt.baseNeighbor n).used = false →
          ((state.nt.moveRow i (i - state.hole)).baseNeighbor n).used =
            false := by
        intro n hn hunused
        dsimp only [NeighborTbl.moveRow, NeighborTbl.setRow, NeighborTbl.setNeighbor]
        by_cases hni : n = i
        · rw [hni, update_self]
        · rw [update_of_ne hni, update_of_ne hn]
          exact hunused
      refine ⟨hsound', hsame.trans hsame', hsize, hused, ?_, ?_, ?_⟩
      · dsimp only
        omega
      · intro n hge hlt
        dsimp only at hge ⊢
        by_cases hni : n = i
        · dsimp only [NeighborTbl.moveRow, NeighborTbl.setRow, NeighborTbl.setNeighbor]
          rw [hni, update_self]
        · exact hkept n (by omega) (hfree n (by omega) (by omega))
      · intro n hn hge
        exact hkept n (by omega) (hbehind n hn hge)
  · rw [if_neg hrow]
    rw [Bool.not_eq_true] at hrow
    refine ⟨hsound, hsame, hsize, hused, ?_, ?_, hbehind⟩
    · exact Nat.succ_le_succ hhole
    · intro n hge hlt
      dsimp only at hge ⊢
      by_cases hni : n = i
      · rw [hni]
        exact hrow
      · exact hfree n (by omega) (by omega)

theorem PackInvariant.packLoop {nt : NeighborTbl} {rounds i : ℕ} {state : PackState}
    (hinvariant : PackInvariant nt i state)
    (hrounds : i + rounds ≤ nt.baseNeighborSize) :
    ∃ j, PackInvariant nt j (packLoop rounds i state) := by
  induction rounds generalizing i state with
  | zero => exact ⟨i, hinvariant⟩
  | succ rounds ih =>
    rw [Zboss.packLoop]
    split
    · exact ih (hinvariant.packRow (by omega)) (by omega)
    · exact ⟨i, hinvariant⟩

theorem packLoop_of_full {nt : NeighborTbl} {rounds i : ℕ}
    (hfull : ∀ n, n < nt.baseNeighborUsed → (nt.baseNeighbor n).used = true) :
    (packLoop rounds i ⟨nt, i, 0⟩).nt = nt := by
  induction rounds generalizing i with
  | zero => rfl
  | succ rounds ih =>
    rw [packLoop]
    split
    · rename_i hi
      have hrow : packRow ⟨nt, i, 0⟩ i = ⟨nt, i + 1, 0⟩ := by
        rw [packRow, if_pos (hfull i hi), if_neg (not_not.mpr rfl)]
      rw [hrow]
      exact ih
    · rfl

theorem RowsSound.packBaseNeighbor
    {nt : NeighborTbl} (hsound : RowsSound nt) (hsafe : PackSafe nt) :
    RowsSound (packBaseNeighbor nt) ∧
      SameReferences nt (packBaseNeighbor nt) := by
  unfold Zboss.packBaseNeighbor
  rcases hsafe with hfull | hbehind
  · rw [packLoop_of_full hfull]
    exact ⟨hsound, fun _ => Iff.rfl⟩
  · have hstart : PackInvariant nt 0 ⟨nt, 0, 0⟩ :=
      ⟨hsound, fun _ => Iff.rfl, rfl, rfl, Nat.le_refl _,
        fun n _ hn => absurd hn (Nat.not_lt_zero n), hbehind⟩
    obtain ⟨j, hpacked⟩ := hstart.packLoop (Nat.le_of_eq (Nat.zero_add _))
    exact ⟨hpacked.sound, hpacked.same⟩

theorem zbNwkExneighborStart_rows {zg zg' : Globals} (hsound : RowsSound zg.neighbor)
    (hsafe : zg.neighbor.extNeighborSize = 0 → PackSafe zg.neighbor)
    (hstart : zbNwkExneighborStart zg = some zg') :
    zg'.addr = zg.addr ∧ RowsSound zg'.neighbor ∧
      SameReferences zg.neighbor zg'.neighbor := by
  unfold zbNwkExneighborStart at hstart
  dsimp only at hstart
  split at hstart
  · obtain rfl := some.inj hstart
    exact ⟨rfl, hsound, fun _ => Iff.rfl⟩
  · rename_i hstopped
    have hpacked : RowsSound (if zg.neighbor.baseNeighborUsed ≠ 0 then
            packBaseNeighbor zg.neighbor else zg.neighbor) ∧
        SameReferences zg.neighbor (if zg.neighbor.baseNeighborUsed ≠ 0 then
            packBaseNeighbor zg.neighbor else zg.neighbor) := by
      split
      · exact hsound.packBaseNeighbor (hsafe (not_not.mp hstopped))
      · exact ⟨hsound, fun _ => Iff.rfl⟩
    generalize (if zg.neighbor.baseNeighborUsed ≠ 0 then
      packBaseNeighbor zg.neighbor else zg.neighbor) = nt at hpacked hstart
    obtain ⟨hsound', hsame⟩ := hpacked
    split at hstart
    · contradiction
    · split at hstart
      · contradiction
      · obtain rfl := some.inj hstart
        refine ⟨rfl, ⟨?_, ?_, hsound'.linked, hsound'.genuine⟩, hsame⟩
        · exact Nat.le_trans (Nat.sub_le _ _) hsound'.size
        · have hroom := hsound'.room
          simp only [cutRows]
          split
          · omega
          · omega

theorem RowsSound.moveToBase {nt nt' : NeighborTbl} {addrRef : ℕ} {ext : ExtNeighborTblEnt}
    (hsound : RowsSound nt) (hmove : moveToBase nt addrRef ext = some nt') :
    RowsSound nt' ∧ ∀ ref, ref ≠ addrRef →
      nt'.addrToNeighbor ref = nt.addrToNeighbor ref := by
  unfold Zboss.moveToBase at hmove
  dsimp only at hmove
  split at hmove
  · rename_i hpresent
    split at hmove
    · rename_i hused
      obtain rfl := some.inj hmove
      exact ⟨hsound.rewriteRow hpresent hused rfl, fun _ _ => rfl⟩
    · contradiction
  · rename_i habsent
    split at hmove
    · rename_i hroom
      obtain rfl := some.inj hmove
      refine ⟨hsound.addRow (not_not.mp habsent) hroom rfl rfl, ?_⟩
      intro ref href
      exact update_of_ne href _ _
    · obtain rfl := some.inj hmove
      exact ⟨hsound, fun _ _ => rfl⟩

theorem giveToBase_rows {zg zg' : Globals} {freeSize freeSize' : ℕ}
    (hgive : giveToBase zg freeSize = some (zg', freeSize'))
    (hsound : RowsSound zg.neighbor) :
    zg'.addr = zg.addr ∧ RowsSound zg'.neighbor ∧
      zg'.neighbor.addrToNeighbor = zg.neighbor.addrToNeighbor := by
  unfold giveToBase at hgive
  dsimp only at hgive
  split at hgive
  · rename_i hsize
    simp only [some.injEq, Prod.mk.injEq] at hgive
    obtain ⟨rfl, _⟩ := hgive
    exact ⟨rfl, ⟨hsize, Nat.le_trans hsound.room (Nat.le_add_right _ _), hsound.linked,
        hsound.genuine⟩, rfl⟩
  · contradiction

theorem RowsSound.restoreBase
    {nt : NeighborTbl} (hsound : RowsSound nt) (before : NeighborTbl)
    (residue : ℕ → NeighborTblEnt) :
    RowsSound (restoreBase before nt residue) := by
  have hrow : ∀ n, n < nt.baseNeighborUsed →
      (Zboss.restoreBase before nt residue).baseNeighbor n = nt.baseNeighbor n :=
    fun n hn => if_pos (Or.inl hn)
  constructor
  · exact Nat.le_refl _
  · exact Nat.le_trans hsound.room hsound.size
  · intro ref href
    obtain ⟨hlt, hlinked⟩ := hsound.linked ref href
    refine ⟨hlt, ?_⟩
    change ((Zboss.restoreBase before nt residue).baseNeighbor
        (nt.addrToNeighbor ref)).used = true ∧
      ((Zboss.restoreBase before nt residue).baseNeighbor
        (nt.addrToNeighbor ref)).addrRef = ref
    rw [hrow _ hlt]
    exact hlinked
  · intro n hn hused
    rw [hrow n hn] at hused ⊢
    exact hsound.genuine n hn hused

theorem zbNwkNeighborGet_rows
    {zg zg' : Globals} {ref : ℕ} {create : Bool} {ret : Except RetError ℕ}
    (hsound : RowsSound zg.neighbor)
    (hget : zbNwkNeighborGet zg ref create = some (zg', ret)) :
    RowsSound zg'.neighbor := by
  rcases zbNwkNeighborGet_eq_some hget with ⟨rfl, _⟩ |
    ⟨habsent, _, hroom, _, _, locked, _, rfl⟩
  · exact hsound
  · exact hsound.addRow habsent hroom rfl rfl

theorem zbNwkNeighborDelete_rows
    {zg : Globals} (hsound : RowsSound zg.neighbor) (ref : ℕ) :
    (zbNwkNeighborDelete zg ref).1.addr = zg.addr ∧
      RowsSound (zbNwkNeighborDelete zg ref).1.neighbor ∧
      (zbNwkNeighborDelete zg ref).1.neighbor.addrToNeighbor ref = noNeighbor ∧
      ∀ other, other ≠ ref → (zbNwkNeighborDelete zg ref).1.neighbor.addrToNeighbor other =
          zg.neighbor.addrToNeighbor other := by
  unfold zbNwkNeighborDelete
  dsimp only
  split
  · rename_i hpresent
    refine ⟨rfl, hsound.dropRow hpresent, ?_, ?_⟩
    · simp only [NeighborTbl.setRow, NeighborTbl.setNeighbor, update_self]
    · intro other hother
      simp only [NeighborTbl.setRow, NeighborTbl.setNeighbor, update_of_ne hother]
  · rename_i habsent
    exact ⟨rfl, hsound, not_not.mp habsent, fun _ _ => rfl⟩

end Zboss
