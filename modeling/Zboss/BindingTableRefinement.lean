import Zboss.BindingTable
import Zboss.TransitionSystem
import Mathlib.Data.Multiset.Filter

/-!
# The binding table as a multiset of pairs

The rows of the two tables stand for a multiset of pairs of a source and a
destination.  Requests to bind and to unbind add and remove pairs of it, except
that a request to unbind compares the row which is left at index 0 of an empty
table.
-/

namespace Zboss

open Function Option ApsBindingTable IndexedRows PackedArray TransitionSystem

def ApsBindingTable.dstRows (b : ApsBindingTable) : List ApsBindDstTable :=
  live b.dstTable b.dstNElements

def ApsBindingTable.pairList (b : ApsBindingTable) :
    List (ApsBindSrcTable × ApsBindDst) :=
  resolve ApsBindDstTable.srcTableIndex ApsBindDstTable.dst b.srcTable b.dstRows

def ApsBindingTable.pairs (b : ApsBindingTable) :
    Multiset (ApsBindSrcTable × ApsBindDst) :=
  b.pairList

structure ApsBindingTable.WellFormed (b : ApsBindingTable) : Prop where
  srcRoom : b.srcNElements ≤ apsSrcBindingTableSize
  dstRoom : b.dstNElements ≤ apsDstBindingTableSize
  index : ∀ row ∈ b.dstRows, row.srcTableIndex < b.srcNElements
  inhabited : ∀ s < b.srcNElements, ∃ row ∈ b.dstRows, row.srcTableIndex = s
  distinct : (live b.srcTable b.srcNElements).Nodup

structure BindingState where
  addr : AddrGlobals
  binding : ApsBindingTable

inductive BindingCall where
  | bind (req : ApsmeBindingReq)
  | unbind (req : ApsmeBindingReq)

def BindingCall.exec (state : BindingState) :
    BindingCall → Option (AddrGlobals × ApsBindingTable × BindStatus)
  | .bind req => zbApsmeBindRequest state.addr state.binding req
  | .unbind req => zbApsmeUnbindRequest state.addr state.binding req

def BindingCall.apply (state : BindingState) (call : BindingCall) :
    Option BindingState :=
  (call.exec state).map fun (addr, binding, _) => ⟨addr, binding⟩

def namedPair (g : AddrGlobals) (req : ApsmeBindingReq) (create : Bool) :
    Option (ApsBindSrcTable × ApsBindDst) :=
  match zbAddressByIeee g req.srcAddr create false with
  | some (g, .ok srcAddrRef) =>
      match bindingDst g req with
      | some (_, .ok dst) => some (req.src srcAddrRef, dst)
      | _ => none
  | _ => none

def AddressFault (g : AddrGlobals) (req : ApsmeBindingReq) (create : Bool) :
    Prop :=
  match zbAddressByIeee g req.srcAddr create false with
  | some (g, .ok _) => bindingDst g req = none
  | some (_, .error _) => False
  | none => True

def BindEffect (state : BindingState) (req : ApsmeBindingReq)
    (next : ApsBindingTable) (status : BindStatus) : Prop :=
  if status = .ok then
    ∃ pair, namedPair state.addr req true = some pair ∧
      next.pairs = pair ::ₘ state.binding.pairs
  else next = state.binding

structure UnbindEffect (state : BindingState) (req : ApsmeBindingReq)
    (next : ApsBindingTable) (status : BindStatus) : Prop where
  removed : ∀ pair, namedPair state.addr req false = some pair →
    next.pairs = state.binding.pairs.filter (· ≠ pair)
  error : status ≠ .ok → next = state.binding
  unbound : (∀ pair, namedPair state.addr req false = some pair →
    pair ∉ state.binding.pairs) → next = state.binding

/-- The request keeps the tables well-formed and has its effect; it returns
unless an address look-up does not. -/
def BindingCall.Correct (state : BindingState) : BindingCall → Prop
  | .bind req =>
      match zbApsmeBindRequest state.addr state.binding req with
      | some (_, next, status) => next.WellFormed ∧ BindEffect state req next status
      | none => AddressFault state.addr req true
  | .unbind req =>
      match zbApsmeUnbindRequest state.addr state.binding req with
      | some (_, next, status) => next.WellFormed ∧ UnbindEffect state req next status
      | none => AddressFault state.addr req false

/-- A request to unbind which finds the tables empty does not take the rows
left at index 0 for rows of its pair. -/
def BindingCall.Safe (state : BindingState) : BindingCall → Prop
  | .bind _ => True
  | .unbind req =>
      state.binding.srcNElements = 0 → ∀ pair, namedPair state.addr req false = some pair →
          state.binding.srcTable 0 = pair.1 →
            (state.binding.dstTable 0).srcTableIndex = 0 ∧
              (state.binding.dstTable 0).dst ≠ pair.2

section

variable {b : ApsBindingTable} {src : ApsBindSrcTable} {dst : ApsBindDst} {s : ℕ}

theorem ApsBindingTable.WellFormed.dst_empty
    (hwf : b.WellFormed) (hempty : b.srcNElements = 0) :
    b.dstNElements = 0 := by
  by_contra hne
  have hrow : b.dstTable 0 ∈ b.dstRows := mem_live.mpr ⟨0, Nat.pos_of_ne_zero hne, rfl⟩
  have hindex := hwf.index _ hrow
  omega

theorem ApsBindingTable.WellFormed.dst_pos
    (hwf : b.WellFormed) (hpos : 0 < b.srcNElements) :
    0 < b.dstNElements := by
  obtain ⟨row, hrow, _⟩ := hwf.inhabited 0 hpos
  obtain ⟨i, hi, _⟩ := mem_live.mp hrow
  exact Nat.lt_of_le_of_lt (Nat.zero_le i) hi

theorem apsFindSrcRef_eq_some (hfind : apsFindSrcRef b src = some s) :
    s < max 1 b.srcNElements ∧ b.srcTable s = src := by
  have hmem := List.mem_of_find?_eq_some hfind
  have hmatch := List.find?_some hfind
  exact ⟨List.mem_range.mp hmem, by simpa using hmatch⟩

theorem apsFindSrcRef_eq_none (hfind : apsFindSrcRef b src = none) :
    ∀ l, l < max 1 b.srcNElements → b.srcTable l ≠ src := by
  intro l hl
  have hnone := List.find?_eq_none.mp hfind l (List.mem_range.mpr hl)
  simpa using hnone

theorem apsFindSrcRef_getD (hs : (apsFindSrcRef b src).getD b.srcNElements = s) :
    (s < b.srcNElements ∧ b.srcTable s = src) ∨ (s = b.srcNElements ∧
        ∀ l, l < b.srcNElements → b.srcTable l ≠ src) := by
  cases hfind : apsFindSrcRef b src with
  | some l =>
    rw [hfind, getD_some] at hs
    subst hs
    obtain ⟨hl, hsrc⟩ := apsFindSrcRef_eq_some hfind
    by_cases hlive : l < b.srcNElements
    · exact Or.inl ⟨hlive, hsrc⟩
    · refine Or.inr ⟨by omega, ?_⟩
      intro k hk
      omega
  | none =>
    rw [hfind, Option.getD_none] at hs
    refine Or.inr ⟨hs.symm, ?_⟩
    intro l hl
    exact apsFindSrcRef_eq_none hfind l (by omega)

theorem addBinding_dstRows :
    (addBinding b src s dst).dstRows = b.dstRows ++ [⟨dst, s⟩] := by
  have hrows : (addBinding b src s dst).dstRows =
      live (update b.dstTable b.dstNElements ⟨dst, s⟩) (b.dstNElements + 1) := by
    unfold addBinding dstRows
    dsimp only
    split <;> rfl
  rw [hrows, live_succ, update_self, dstRows]
  congr 1
  apply live_congr
  intro i hi
  rw [update_of_ne (by omega)]

def IsSrcPlace (b : ApsBindingTable) (src : ApsBindSrcTable) (s : ℕ) : Prop :=
  (s < b.srcNElements ∧ b.srcTable s = src) ∨
    (s = b.srcNElements ∧ ∀ l, l < b.srcNElements → b.srcTable l ≠ src)

theorem addBinding_srcNElements : (addBinding b src s dst).srcNElements =
      if s = b.srcNElements then b.srcNElements + 1 else b.srcNElements := by
  unfold addBinding
  dsimp only
  split <;> rfl

theorem addBinding_dstNElements :
    (addBinding b src s dst).dstNElements = b.dstNElements + 1 := by
  unfold addBinding
  dsimp only
  split <;> rfl

theorem addBinding_srcTable_of_lt {l : ℕ} (hl : l < b.srcNElements) :
    (addBinding b src s dst).srcTable l = b.srcTable l := by
  unfold addBinding
  dsimp only
  split
  · rename_i heq
    exact update_of_ne (by omega) _ _
  · rfl

theorem addBinding_srcTable_place (hplace : IsSrcPlace b src s) :
    (addBinding b src s dst).srcTable s = src := by
  rcases hplace with ⟨hlt, hsrc⟩ | ⟨rfl, _⟩
  · rw [addBinding_srcTable_of_lt hlt, hsrc]
  · unfold addBinding
    dsimp only
    rw [if_pos rfl]
    exact update_self _ _ _

theorem addBinding_pairs (hwf : b.WellFormed) (hplace : IsSrcPlace b src s) :
    (addBinding b src s dst).pairs = (src, dst) ::ₘ b.pairs := by
  have hlist : (addBinding b src s dst).pairList = b.pairList ++ [(src, dst)] := by
    rw [pairList, addBinding_dstRows, resolve_append_row, addBinding_srcTable_place hplace]
    congr 1
    apply resolve_congr
    intro row hrow
    exact addBinding_srcTable_of_lt (hwf.index row hrow)
  rw [pairs, pairs, hlist, Multiset.cons_coe, Multiset.coe_eq_coe]
  exact List.perm_append_singleton _ _

theorem ApsBindingTable.WellFormed.addBinding
    (hwf : b.WellFormed) (hplace : IsSrcPlace b src s)
    (hs : s < apsSrcBindingTableSize)
    (hd : b.dstNElements < apsDstBindingTableSize) :
    (addBinding b src s dst).WellFormed := by
  have hn : (Zboss.addBinding b src s dst).srcNElements =
      max b.srcNElements (s + 1) := by
    rw [addBinding_srcNElements]
    rcases hplace with ⟨hlt, _⟩ | ⟨rfl, _⟩
    · rw [if_neg (by omega)]
      omega
    · rw [if_pos rfl]
      omega
  refine ⟨?_, ?_, ?_, ?_, ?_⟩
  · rw [hn]
    exact max_le hwf.srcRoom hs
  · rw [addBinding_dstNElements]
    exact hd
  · intro row hrow
    rw [addBinding_dstRows, List.mem_append, List.mem_singleton] at hrow
    rw [hn]
    rcases hrow with hold | rfl
    · have hindex := hwf.index row hold
      omega
    · exact lt_max_of_lt_right (Nat.lt_succ_self s)
  · intro l hl
    rw [addBinding_dstRows]
    by_cases hls : l = s
    · exact ⟨⟨dst, s⟩, by simp, hls.symm⟩
    · have hl' : l < b.srcNElements := by
        rcases hplace with ⟨hlt, _⟩ | ⟨rfl, _⟩ <;> omega
      obtain ⟨row, hrow, hindex⟩ := hwf.inhabited l hl'
      exact ⟨row, List.mem_append_left _ hrow, hindex⟩
  · rw [hn]
    rcases hplace with ⟨hlt, hsrc⟩ | ⟨rfl, hnew⟩
    · rw [max_eq_left hlt]
      rw [live_congr fun l hl => addBinding_srcTable_of_lt hl]
      exact hwf.distinct
    · rw [max_eq_right (Nat.le_succ _), live_succ,
        live_congr fun l hl => addBinding_srcTable_of_lt hl,
        addBinding_srcTable_place (Or.inr ⟨rfl, hnew⟩)]
      rw [List.nodup_append]
      refine ⟨hwf.distinct, List.nodup_singleton _, ?_⟩
      intro row hrow other hother
      obtain ⟨l, hl, rfl⟩ := mem_live.mp hrow
      rw [List.mem_singleton.mp hother]
      exact hnew l hl

end

/-! ## Removing a pair -/

section

variable {s : ℕ} {dst : ApsBindDst}

def keptRows (s : ℕ) (dst : ApsBindDst) (rows : List ApsBindDstTable) :
    List ApsBindDstTable :=
  rows.filter fun row => ¬ (row.srcTableIndex = s ∧ row.dst = dst)

theorem unbindScanRow_spec {scan : UnbindScan} {done rest : List ApsBindDstTable}
    {row : ApsBindDstTable}
    (hrows : live scan.dstTable scan.dstNElements = done ++ row :: rest)
    (hd : done.length = scan.d) :
    ∃ next, unbindScanRow s dst scan = some next ∧
      if row.srcTableIndex = s ∧ row.dst = dst then
        live next.dstTable next.dstNElements = done ++ rest ∧
          next.d = scan.d ∧ next.found = scan.found
      else
        live next.dstTable next.dstNElements = (done ++ [row]) ++ rest ∧
          next.d = scan.d + 1 ∧
          next.found = (scan.found || row.srcTableIndex == s) := by
  have hn : scan.dstNElements = done.length + (rest.length + 1) := by
    rw [← live_length scan.dstTable scan.dstNElements, hrows]
    simp
  have hlt : scan.d < scan.dstNElements := by omega
  have hrow : scan.dstTable scan.d = row := by
    rw [← live_getElem scan.dstTable scan.dstNElements scan.d (by simpa)]
    simp [hrows, ← hd]
  unfold unbindScanRow
  dsimp only
  rw [hrow]
  by_cases hmatch : row.srcTableIndex = s ∧ row.dst = dst
  · rw [if_pos hmatch, if_neg (by omega)]
    refine ⟨_, rfl, ?_⟩
    rw [if_pos hmatch]
    refine ⟨?_, rfl, rfl⟩
    rw [live_closeGap_of_le hlt (Nat.le_refl _), hrows, ← hd,
      List.eraseIdx_append_of_length_le (Nat.le_refl _), Nat.sub_self,
      List.eraseIdx_cons_zero]
  · rw [if_neg hmatch]
    refine ⟨_, rfl, ?_⟩
    rw [if_neg hmatch]
    refine ⟨?_, rfl, rfl⟩
    rw [hrows]
    simp

theorem keptRows_cons (row : ApsBindDstTable) (rest : List ApsBindDstTable) :
    keptRows s dst (row :: rest) =
      if row.srcTableIndex = s ∧ row.dst = dst then keptRows s dst rest
      else row :: keptRows s dst rest := by
  rw [keptRows, List.filter_cons]
  by_cases hmatch : row.srcTableIndex = s ∧ row.dst = dst
  · rw [if_pos hmatch, if_neg (by simpa using hmatch)]
    rfl
  · rw [if_neg hmatch, if_pos (decide_eq_true hmatch)]
    rfl

theorem unbindScan_spec {rounds : ℕ} {scan : UnbindScan} {done rest : List ApsBindDstTable}
    {row : ApsBindDstTable}
    (hrows : live scan.dstTable scan.dstNElements = done ++ row :: rest)
    (hd : done.length = scan.d) (hrounds : rest.length < rounds) :
    ∃ last, unbindScan s dst rounds scan = some last ∧
      live last.dstTable last.dstNElements = done ++ keptRows s dst (row :: rest) ∧
      last.found = (scan.found ||
          (keptRows s dst (row :: rest)).any (·.srcTableIndex == s)) := by
  induction rest generalizing rounds scan done row with
  | nil =>
    obtain ⟨rounds, rfl⟩ := Nat.exists_eq_add_one_of_ne_zero (Nat.ne_zero_of_lt hrounds)
    obtain ⟨next, hnext, heffect⟩ := unbindScanRow_spec hrows hd
    have hlast : unbindScan s dst (rounds + 1) scan = some next := by
      have hend : ¬ next.d < next.dstNElements := by
        rw [← live_length next.dstTable next.dstNElements]
        split at heffect
        · rw [heffect.1, heffect.2.1]
          simp [hd]
        · rw [heffect.1, heffect.2.1]
          simp [hd]
      rw [unbindScan, hnext, bind_eq_bind, bind_some, if_neg hend]
    refine ⟨next, hlast, ?_⟩
    rw [keptRows_cons]
    split at heffect
    · rename_i hmatch
      rw [if_pos hmatch]
      simpa [keptRows] using And.intro heffect.1 heffect.2.2
    · rename_i hother
      rw [if_neg hother]
      simpa [keptRows] using And.intro heffect.1 heffect.2.2
  | cons row' rest ih =>
    obtain ⟨rounds, rfl⟩ := Nat.exists_eq_add_one_of_ne_zero (Nat.ne_zero_of_lt hrounds)
    have hrounds' : rest.length < rounds := by
      rw [List.length_cons] at hrounds
      omega
    obtain ⟨next, hnext, heffect⟩ := unbindScanRow_spec hrows hd
    have hmore : unbindScan s dst (rounds + 1) scan =
        unbindScan s dst rounds next := by
      have hlt : next.d < next.dstNElements := by
        rw [← live_length next.dstTable next.dstNElements]
        split at heffect
        · rw [heffect.1, heffect.2.1]
          simp [hd]
        · rw [heffect.1, heffect.2.1]
          simp [hd]
      rw [unbindScan, hnext, bind_eq_bind, bind_some, if_pos hlt]
    rw [hmore, keptRows_cons]
    split at heffect
    · rename_i hmatch
      obtain ⟨hlive, hnextd, hfound⟩ := heffect
      rw [if_pos hmatch, ← hfound]
      exact ih hlive (by rw [hnextd, hd]) hrounds'
    · rename_i hother
      obtain ⟨hlive, hnextd, hfound⟩ := heffect
      rw [if_neg hother]
      obtain ⟨last, hlast, hlive', hfound'⟩ :=
        ih hlive (by rw [hnextd, ← hd]; simp) hrounds'
      refine ⟨last, hlast, ?_, ?_⟩
      · rw [hlive', List.append_assoc]
        rfl
      · rw [hfound', hfound, List.any_cons, Bool.or_assoc]

theorem unbindScan_unmatched {rounds : ℕ} {scan last : UnbindScan}
    (hother : ∀ row ∈ live scan.dstTable scan.dstNElements,
      ¬ (row.srcTableIndex = s ∧ row.dst = dst))
    (hd : scan.d < scan.dstNElements)
    (hlast : unbindScan s dst rounds scan = some last) :
    last.dstTable = scan.dstTable ∧ last.dstNElements = scan.dstNElements := by
  induction rounds generalizing scan with
  | zero =>
    obtain rfl := some.inj hlast
    exact ⟨rfl, rfl⟩
  | succ rounds ih =>
    have hrow := hother _ (mem_live.mpr ⟨scan.d, hd, rfl⟩)
    rw [unbindScan, unbindScanRow] at hlast
    dsimp only at hlast
    rw [if_neg hrow, bind_eq_bind, bind_some] at hlast
    split at hlast
    · rename_i hmore
      exact @ih
        { scan with
          d := scan.d + 1
          found := scan.found || (scan.dstTable scan.d).srcTableIndex == s }
        hother hmore hlast
    · obtain rfl := some.inj hlast
      exact ⟨rfl, rfl⟩

/-! ### The rows of an empty table -/

theorem unbindScan_empty {table : ℕ → ApsBindDstTable}
    (hindex : (table 0).srcTableIndex = 0) (hdst : (table 0).dst ≠ dst) :
    unbindScan 0 dst 1 ⟨table, 0, 0, false⟩ =
      some ⟨table, 0, 1, true⟩ := by
  rw [unbindScan, unbindScanRow]
  dsimp only
  rw [if_neg (by simp [hdst]), bind_eq_bind, bind_some, if_neg (Nat.not_lt_zero _), hindex]
  rfl

variable {b : ApsBindingTable}

theorem removeBinding_empty (hsrc : b.srcNElements = 0) (hdst : b.dstNElements = 0) :
    removeBinding b 0 dst =
      if (b.dstTable 0).srcTableIndex = 0 ∧ (b.dstTable 0).dst ≠ dst then some b
      else none := by
  obtain ⟨srcTable, dstTable, srcN, dstN⟩ := b
  dsimp only at hsrc hdst ⊢
  subst hsrc hdst
  by_cases hindex : (dstTable 0).srcTableIndex = 0
  · by_cases hrow : (dstTable 0).dst = dst
    · rw [if_neg (by simp [hrow])]
      simp [removeBinding, unbindScan, unbindScanRow, hindex, hrow]
    · rw [if_pos ⟨hindex, hrow⟩, removeBinding]
      dsimp only
      rw [unbindScan_empty hindex hrow]
      rfl
  · rw [if_neg (by simp [hindex])]
    simp [removeBinding, unbindScan, unbindScanRow, hindex, dropSource]

/-! ### The rows of a source -/

theorem shiftDown_lt {n s i : ℕ} (hi : i < n) (hne : i ≠ s) (hs : s < n) :
    shiftDown s i < n - 1 := by
  unfold shiftDown
  split <;> omega

theorem dropSource_wellFormed (hs : s < b.srcNElements)
    (hsrcRoom : b.srcNElements ≤ apsSrcBindingTableSize)
    (hdstRoom : b.dstNElements ≤ apsDstBindingTableSize)
    (hindex : ∀ row ∈ b.dstRows, row.srcTableIndex < b.srcNElements)
    (hfree : ∀ row ∈ b.dstRows, row.srcTableIndex ≠ s)
    (hinhabited : ∀ l < b.srcNElements, l ≠ s → ∃ row ∈ b.dstRows, row.srcTableIndex = l)
    (hdistinct : (live b.srcTable b.srcNElements).Nodup) :
    ∃ next, dropSource b s = some next ∧ next.WellFormed ∧ next.pairList = b.pairList := by
  rw [dropSource, if_neg (Nat.ne_zero_of_lt hs)]
  refine ⟨_, rfl, ?_⟩
  have hrows : live (fun d =>
        if d < max 1 b.dstNElements then (b.dstTable d).renumber s
        else b.dstTable d) b.dstNElements =
      b.dstRows.map (·.renumber s) := by
    rw [dstRows, live, live, List.map_map]
    apply List.map_congr_left
    intro d hd
    have hlt := List.mem_range.mp hd
    rw [if_pos (by omega)]
    rfl
  refine ⟨⟨?_, hdstRoom, ?_, ?_, ?_⟩, ?_⟩
  · exact (Nat.sub_le _ _).trans hsrcRoom
  · intro row hrow
    rw [dstRows, hrows] at hrow
    obtain ⟨old, hold, rfl⟩ := List.mem_map.mp hrow
    exact shiftDown_lt (hindex old hold) (hfree old hold) hs
  · intro l hl
    rw [dstRows, hrows]
    dsimp only at hl
    by_cases hbelow : l < s
    · obtain ⟨row, hrow, hl'⟩ := hinhabited l (by omega) (by omega)
      refine ⟨_, List.mem_map_of_mem hrow, ?_⟩
      rw [ApsBindDstTable.renumber, hl', shiftDown, if_neg (by omega)]
    · obtain ⟨row, hrow, hl'⟩ := hinhabited (l + 1) (by omega) (by omega)
      refine ⟨_, List.mem_map_of_mem hrow, ?_⟩
      rw [ApsBindDstTable.renumber, hl', shiftDown, if_pos (by omega), Nat.add_sub_cancel]
  · dsimp only
    rw [live_closeGap_of_le hs (Nat.le_refl _)]
    exact hdistinct.eraseIdx s
  · rw [pairList, dstRows, hrows]
    exact resolve_closeGap (Nat.le_refl _) hindex hfree (fun _ => rfl) (fun _ => rfl)

section

variable (hwf : b.WellFormed)

include hwf

theorem keptRows_inhabited {l : ℕ} (hl : l < b.srcNElements) (hls : l ≠ s) :
    ∃ row ∈ keptRows s dst b.dstRows, row.srcTableIndex = l := by
  obtain ⟨row, hrow, hindex⟩ := hwf.inhabited l hl
  refine ⟨row, ?_, hindex⟩
  rw [keptRows, List.mem_filter]
  refine ⟨hrow, decide_eq_true ?_⟩
  intro hmatch
  exact hls (hindex.symm.trans hmatch.1)

theorem resolve_keptRows (hs : s < b.srcNElements) :
    resolve ApsBindDstTable.srcTableIndex ApsBindDstTable.dst
        b.srcTable (keptRows s dst b.dstRows) =
      b.pairList.filter (· ≠ (b.srcTable s, dst)) :=
  resolve_filter hwf.distinct hs hwf.index

theorem ApsBindingTable.WellFormed.unbindScan (hs : s < b.srcNElements) (dst : ApsBindDst) :
    ∃ scan, unbindScan s dst (b.dstNElements + 1)
        ⟨b.dstTable, b.dstNElements, 0, false⟩ = some scan ∧
      live scan.dstTable scan.dstNElements = keptRows s dst b.dstRows ∧
      scan.found = (keptRows s dst b.dstRows).any (·.srcTableIndex == s) := by
  obtain ⟨row, rest, hrows⟩ : ∃ row rest, b.dstRows = row :: rest := by
    apply List.exists_cons_of_length_pos
    rw [dstRows, live_length]
    exact hwf.dst_pos (Nat.zero_lt_of_lt hs)
  have hlength : b.dstNElements = rest.length + 1 := by
    rw [← live_length b.dstTable b.dstNElements]
    exact congrArg List.length hrows
  obtain ⟨scan, hscan, hlive, hfound⟩ :=
    @unbindScan_spec s dst (b.dstNElements + 1)
      ⟨b.dstTable, b.dstNElements, 0, false⟩ [] rest row hrows rfl (by omega)
  rw [List.nil_append, ← hrows] at hlive
  rw [Bool.false_or, ← hrows] at hfound
  exact ⟨scan, hscan, hlive, hfound⟩

theorem removeBinding_wellFormed (hs : s < b.srcNElements) (dst : ApsBindDst) :
    ∃ next, removeBinding b s dst = some next ∧ next.WellFormed ∧
      next.pairList = b.pairList.filter (· ≠ (b.srcTable s, dst)) := by
  obtain ⟨scan, hscan, hlive, hfound⟩ := hwf.unbindScan hs dst
  have hindex : ∀ row ∈ keptRows s dst b.dstRows, row.srcTableIndex < b.srcNElements :=
    fun row hrow => hwf.index row (List.mem_of_mem_filter hrow)
  have hroom : scan.dstNElements ≤ apsDstBindingTableSize := by
    have hle : (keptRows s dst b.dstRows).length ≤ b.dstRows.length :=
      List.length_filter_le _ _
    rw [← hlive, dstRows, live_length, live_length] at hle
    exact hle.trans hwf.dstRoom
  have hpairs : pairList
      { b with dstTable := scan.dstTable, dstNElements := scan.dstNElements } =
        b.pairList.filter (· ≠ (b.srcTable s, dst)) := by
    rw [pairList, dstRows, hlive]
    exact resolve_keptRows hwf hs
  rw [removeBinding, hscan, bind_eq_bind, bind_some]
  dsimp only
  split
  · rename_i hmore
    rw [hmore] at hfound
    refine ⟨_, rfl, ⟨hwf.srcRoom, hroom, ?_, ?_, hwf.distinct⟩, hpairs⟩
    · rw [dstRows, hlive]
      exact hindex
    · intro l hl
      rw [dstRows, hlive]
      by_cases hls : l = s
      · obtain ⟨row, hrow, hmatch⟩ := List.any_eq_true.mp hfound.symm
        exact ⟨row, hrow, by simpa [hls] using hmatch⟩
      · exact keptRows_inhabited hwf hl hls
  · rename_i hlast
    rw [Bool.not_eq_true] at hlast
    rw [hlast] at hfound
    have hfree : ∀ row ∈ keptRows s dst b.dstRows, row.srcTableIndex ≠ s := by
      intro row hrow
      have hnone := List.any_eq_false.mp hfound.symm row hrow
      simpa using hnone
    obtain ⟨next, hnext, hwf', hsame⟩ :=
      @dropSource_wellFormed s
        { b with dstTable := scan.dstTable, dstNElements := scan.dstNElements }
        hs hwf.srcRoom hroom
        (by rw [dstRows, hlive]; exact hindex)
        (by rw [dstRows, hlive]; exact hfree)
        (by
          intro l hl hls
          rw [dstRows, hlive]
          exact keptRows_inhabited hwf hl hls)
        hwf.distinct
    exact ⟨next, hnext, hwf', hsame.trans hpairs⟩

theorem removeBinding_unmatched (hs : s < b.srcNElements)
    (hunbound : (b.srcTable s, dst) ∉ b.pairList) :
    removeBinding b s dst = some b := by
  have hother : ∀ row ∈ b.dstRows, ¬ (row.srcTableIndex = s ∧ row.dst = dst) := by
    intro row hrow hmatch
    refine hunbound (mem_resolve.mpr ⟨row, hrow, ?_, hmatch.2⟩)
    rw [hmatch.1]
  obtain ⟨scan, hscan, hlive, hfound⟩ := hwf.unbindScan hs dst
  obtain ⟨htable, hn⟩ :=
    @unbindScan_unmatched s dst _ ⟨b.dstTable, b.dstNElements, 0, false⟩ _
      hother (hwf.dst_pos (Nat.zero_lt_of_lt hs)) hscan
  have hmore : scan.found = true := by
    obtain ⟨row, hrow, hindex⟩ := hwf.inhabited s hs
    rw [hfound, List.any_eq_true]
    refine ⟨row, ?_, by simpa using hindex⟩
    rw [keptRows, List.mem_filter]
    exact ⟨hrow, decide_eq_true (hother row hrow)⟩
  rw [removeBinding, hscan, bind_eq_bind, bind_some]
  dsimp only
  rw [if_pos hmore, htable, hn]

end

end

variable {req : ApsmeBindingReq} {g : AddrGlobals} {state : BindingState}

theorem namedPair_eq_some {g g₁ g₂ : AddrGlobals} {create : Bool}
    {srcAddrRef : ℕ} {dst : ApsBindDst}
    (hsrc : zbAddressByIeee g req.srcAddr create false = some (g₁, .ok srcAddrRef))
    (hdst : bindingDst g₁ req = some (g₂, .ok dst)) :
    namedPair g req create = some (req.src srcAddrRef, dst) := by
  rw [namedPair, hsrc]
  dsimp only
  rw [hdst]

theorem exists_of_namedPair {create : Bool} {pair : ApsBindSrcTable × ApsBindDst}
    (hpair : namedPair g req create = some pair) :
    ∃ g₁ srcAddrRef g₂ dst, zbAddressByIeee g req.srcAddr create false =
        some (g₁, .ok srcAddrRef) ∧
      bindingDst g₁ req = some (g₂, .ok dst) ∧
      pair = (req.src srcAddrRef, dst) := by
  rw [namedPair] at hpair
  split at hpair
  · rename_i g₁ srcAddrRef hsrc
    split at hpair
    · rename_i g₂ dst hdst
      exact ⟨g₁, srcAddrRef, g₂, dst, hsrc, hdst, (some.inj hpair).symm⟩
    · contradiction
  · contradiction

theorem bindingDst_error {g g' : AddrGlobals} {status : BindStatus}
    (hdst : bindingDst g req = some (g', .error status)) :
    status ≠ .ok := by
  unfold bindingDst at hdst
  split at hdst
  · obtain ⟨⟨g₁, ret⟩, _, hret⟩ := map_eq_some_iff.mp hdst
    cases ret with
    | ok dstAddrRef => simp at hret
    | error err =>
      simp only [Prod.mk.injEq, Except.error.injEq] at hret
      rw [← hret.2]
      exact BindStatus.noConfusion
  · split at hdst
    · simp at hdst
    · simp only [some.injEq, Prod.mk.injEq, Except.error.injEq] at hdst
      rw [← hdst.2]
      exact BindStatus.noConfusion

theorem bind_correct {state : BindingState} (hwf : state.binding.WellFormed)
    (req : ApsmeBindingReq) :
    (BindingCall.bind req).Correct state := by
  have herror : ∀ status : BindStatus, status ≠ .ok →
      BindEffect state req state.binding status := by
    intro status hstatus
    rw [BindEffect, if_neg hstatus]
  rw [BindingCall.Correct, zbApsmeBindRequest, AddressFault]
  cases hsrc : zbAddressByIeee state.addr req.srcAddr true false with
  | none => trivial
  | some result =>
    obtain ⟨g₁, ret⟩ := result
    cases ret with
    | error err => exact ⟨hwf, herror _ BindStatus.noConfusion⟩
    | ok srcAddrRef =>
      simp only [bind_eq_bind, bind_some]
      generalize hplace : (apsFindSrcRef state.binding (req.src srcAddrRef)).getD
          state.binding.srcNElements = s
      by_cases hroom : s < apsSrcBindingTableSize ∧
          state.binding.dstNElements < apsDstBindingTableSize
      · rw [if_pos hroom]
        cases hdst : bindingDst g₁ req with
        | none => trivial
        | some result =>
          obtain ⟨g₂, ret⟩ := result
          cases ret with
          | error status => exact ⟨hwf, herror status (bindingDst_error hdst)⟩
          | ok dst =>
            have hplace' := apsFindSrcRef_getD hplace
            refine ⟨hwf.addBinding hplace' hroom.1 hroom.2, ?_⟩
            rw [BindEffect, if_pos rfl]
            exact ⟨_, namedPair_eq_some hsrc hdst, addBinding_pairs hwf hplace'⟩
      · rw [if_neg hroom]
        exact ⟨hwf, herror _ BindStatus.noConfusion⟩

theorem not_mem_pairs_of_find
    {b : ApsBindingTable} {src : ApsBindSrcTable} (hwf : b.WellFormed)
    (hfind : apsFindSrcRef b src = none) (dst : ApsBindDst) :
    (src, dst) ∉ b.pairs := by
  intro hmem
  obtain ⟨row, hrow, hsrc, _⟩ := mem_resolve.mp (Multiset.mem_coe.mp hmem)
  have hindex := hwf.index row hrow
  exact apsFindSrcRef_eq_none hfind _ (by omega) hsrc

theorem unbindEffect_same (status : BindStatus)
    (hunbound : ∀ pair, namedPair state.addr req false = some pair →
      pair ∉ state.binding.pairs) :
    UnbindEffect state req state.binding status := by
  refine ⟨?_, fun _ => rfl, fun _ => rfl⟩
  intro pair hpair
  rw [Multiset.filter_eq_self.mpr]
  rintro other hother rfl
  exact hunbound other hpair hother

theorem unbindEffect_removed {next : ApsBindingTable} {pair : ApsBindSrcTable × ApsBindDst}
    (hpair : namedPair state.addr req false = some pair)
    (hremoved : next.pairs = state.binding.pairs.filter (· ≠ pair))
    (hsame : pair ∉ state.binding.pairs → next = state.binding) :
    UnbindEffect state req next .ok := by
  refine ⟨?_, fun hstatus => absurd rfl hstatus, ?_⟩
  · intro other hother
    rw [hpair, some.injEq] at hother
    rw [← hother]
    exact hremoved
  · intro hunbound
    exact hsame (hunbound pair hpair)

theorem removeBinding_correct_iff {s : ℕ} {src : ApsBindSrcTable} {dst : ApsBindDst}
    (hwf : state.binding.WellFormed)
    (hpair : namedPair state.addr req false = some (src, dst))
    (hfind : apsFindSrcRef state.binding src = some s) :
    (∃ next, removeBinding state.binding s dst = some next ∧
        next.WellFormed ∧ UnbindEffect state req next .ok) ↔
      (BindingCall.unbind req).Safe state := by
  obtain ⟨hs, hrow⟩ := apsFindSrcRef_eq_some hfind
  rw [BindingCall.Safe, hpair]
  by_cases hempty : state.binding.srcNElements = 0
  · have hdst := hwf.dst_empty hempty
    obtain rfl : s = 0 := by omega
    have hunbound : ∀ pair, pair ∉ state.binding.pairs := by
      intro pair hmem
      obtain ⟨row, hmem, _⟩ := mem_resolve.mp (Multiset.mem_coe.mp hmem)
      rw [dstRows, hdst] at hmem
      exact List.not_mem_nil hmem
    rw [removeBinding_empty hempty hdst]
    constructor
    · rintro ⟨next, hnext, _⟩ _ pair hsame _
      rw [← some.inj hsame]
      by_contra hstale
      rw [if_neg hstale] at hnext
      contradiction
    · intro hsafe
      rw [if_pos (hsafe hempty _ rfl hrow)]
      exact ⟨_, rfl, hwf, unbindEffect_same _ fun pair _ => hunbound pair⟩
  · have hlive : s < state.binding.srcNElements := by omega
    refine iff_of_true ?_ fun hzero => absurd hzero hempty
    obtain ⟨next, hnext, hwf', hpairs⟩ := removeBinding_wellFormed hwf hlive dst
    rw [hrow] at hpairs
    refine ⟨next, hnext, hwf', unbindEffect_removed hpair ?_ ?_⟩
    · rw [pairs, hpairs]
      rfl
    · intro hunbound
      rw [← hrow] at hunbound
      have hsame := removeBinding_unmatched hwf hlive hunbound
      rw [hnext, some.injEq] at hsame
      exact hsame

theorem unbind_correct_iff {state : BindingState} (hwf : state.binding.WellFormed)
    (req : ApsmeBindingReq) :
    (BindingCall.unbind req).Correct state ↔ (BindingCall.unbind req).Safe state := by
  rw [BindingCall.Correct, BindingCall.Safe, zbApsmeUnbindRequest, AddressFault]
  cases hsrc : zbAddressByIeee state.addr req.srcAddr false false with
  | none => simp [namedPair, hsrc]
  | some result =>
    obtain ⟨g₁, ret⟩ := result
    cases ret with
    | error err =>
      have hnone : namedPair state.addr req false = none := by rw [namedPair, hsrc]
      simp only [hnone, bind_eq_bind, bind_some]
      refine iff_of_true ⟨hwf, unbindEffect_same _ ?_⟩ (by simp)
      simp [hnone]
    | ok srcAddrRef =>
      simp only [bind_eq_bind, bind_some]
      cases hfind : apsFindSrcRef state.binding (req.src srcAddrRef) with
      | none =>
        have hunbound : ∀ pair, namedPair state.addr req false = some pair →
              pair.1 = req.src srcAddrRef := by
          intro pair hpair
          rw [namedPair, hsrc] at hpair
          dsimp only at hpair
          split at hpair
          · obtain rfl := some.inj hpair
            rfl
          · contradiction
        refine iff_of_true ⟨hwf, unbindEffect_same _ ?_⟩ ?_
        · rintro ⟨src, dst⟩ hpair
          obtain rfl : src = _ := hunbound _ hpair
          exact not_mem_pairs_of_find hwf hfind dst
        · intro _ pair hpair hstale
          rw [hunbound pair hpair] at hstale
          exact absurd hstale (apsFindSrcRef_eq_none hfind 0 (by omega))
      | some s =>
        cases hdst : bindingDst g₁ req with
        | none => simp [namedPair, hsrc, hdst]
        | some result =>
          obtain ⟨g₂, ret⟩ := result
          cases ret with
          | error status =>
            have hnone : namedPair state.addr req false = none := by
              rw [namedPair, hsrc]
              dsimp only
              rw [hdst]
            simp only [hnone, bind_some]
            refine iff_of_true ⟨hwf, unbindEffect_same _ ?_⟩ (by simp)
            simp [hnone]
          | ok dst =>
            have hpair := namedPair_eq_some hsrc hdst
            rw [← BindingCall.Safe.eq_2, ← removeBinding_correct_iff hwf hpair hfind]
            simp only [bind_some]
            cases removeBinding state.binding s dst with
            | none => simp
            | some next => simp

instance BindingCall.decidableSafe (state : BindingState)
    (call : BindingCall) : Decidable (call.Safe state) := by
  unfold BindingCall.Safe
  split <;> infer_instance

theorem BindingCall.correct_iff (hwf : state.binding.WellFormed) (call : BindingCall) :
    call.Correct state ↔ call.Safe state := by
  cases call with
  | bind req => exact iff_of_true (bind_correct hwf req) trivial
  | unbind req => exact unbind_correct_iff hwf req

theorem BindingCall.Correct.wellFormed {state next : BindingState} {call : BindingCall}
    (hcorrect : call.Correct state) (hstep : call.apply state = some next) :
    next.binding.WellFormed := by
  obtain ⟨⟨addr, binding, status⟩, hexec, rfl⟩ := map_eq_some_iff.mp hstep
  cases call with
  | bind req =>
    rw [BindingCall.exec] at hexec
    rw [BindingCall.Correct, hexec] at hcorrect
    exact hcorrect.1
  | unbind req =>
    rw [BindingCall.exec] at hexec
    rw [BindingCall.Correct, hexec] at hcorrect
    exact hcorrect.1

theorem wellFormed_of_empty {b : ApsBindingTable} (hsrc : b.srcNElements = 0)
    (hdst : b.dstNElements = 0) : b.WellFormed := by
  refine ⟨?_, ?_, ?_, ?_, ?_⟩
  · rw [hsrc]
    exact Nat.zero_le _
  · rw [hdst]
    exact Nat.zero_le _
  · intro row hrow
    rw [dstRows, hdst] at hrow
    exact absurd hrow List.not_mem_nil
  · intro s hs
    omega
  · rw [hsrc]
    exact List.nodup_nil

theorem alongRun_correct_iff (hwf : state.binding.WellFormed) (calls : List BindingCall) :
    AlongRun BindingCall.apply (fun state call => call.Correct state) state calls ↔
      AlongRun BindingCall.apply (fun state call => call.Safe state) state
        calls := by
  refine @alongRun_congr _ _ _ _ _
    (fun state : BindingState => state.binding.WellFormed) ?_ ?_ _ _ hwf
  · intro state call hwf
    exact BindingCall.correct_iff hwf call
  · intro state call next hwf hsafe hstep
    exact ((BindingCall.correct_iff hwf call).mpr hsafe).wellFormed hstep

/-- From empty tables, whatever their rows were before, all requests are
correct exactly if no request to unbind takes a row left at index 0 for one of
its pair. -/
theorem bindingTable_refines_iff (state : BindingState) (calls : List BindingCall)
    (hsrc : state.binding.srcNElements = 0)
    (hdst : state.binding.dstNElements = 0) :
    AlongRun BindingCall.apply (fun state call => call.Correct state) state calls ↔
      AlongRun BindingCall.apply (fun state call => call.Safe state) state
        calls :=
  alongRun_correct_iff (wellFormed_of_empty hsrc hdst) calls

def sampleBinding (dstAddrShort : UInt16) : ApsmeBindingReq where
  srcAddr := ⟨⟨1, 2, 3⟩, ⟨4, 5, 6, 7, 8⟩⟩
  srcEndpoint := 1
  clusterid := 6
  addrMode := apsAddrMode16GroupEndpNotPresent
  dstAddrLong := .zero
  dstAddrShort := dstAddrShort
  dstEndpoint := 0

/-- Two groups are bound, and the first one is unbound twice. -/
theorem bindingTable_refines_iff_groups :
    AlongRun BindingCall.apply (fun state call => call.Correct state) ⟨.zeroed, .zeroed⟩
      [.bind (sampleBinding 1), .bind (sampleBinding 2),
        .unbind (sampleBinding 1), .unbind (sampleBinding 1)] :=
  (bindingTable_refines_iff _ _ rfl rfl).mpr (by decide +kernel)

/-- The only pair is unbound twice: the second request finds it in the rows
which the first one has left, and does not return. -/
theorem not_correct_of_unbind_twice :
    ¬ AlongRun BindingCall.apply (fun state call => call.Correct state) ⟨.zeroed, .zeroed⟩
      [.bind (sampleBinding 1), .unbind (sampleBinding 1), .unbind (sampleBinding 1)] := by
  rw [alongRun_correct_iff (wellFormed_of_empty rfl rfl)]
  decide +kernel

end Zboss
