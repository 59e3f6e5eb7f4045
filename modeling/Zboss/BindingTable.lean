import Zboss.AddressTranslation
import Zboss.IndexedRows

/-!
# The binding table

The requests of `aps_bind.c` to bind and to unbind.  A row of the destination
table refers by index to a row of the source table; both tables hold
references to entries of the address table.  A request returns `none` where an
address look-up does, and where a count wraps below zero, so that a `memmove`
leaves its table.
-/

namespace Zboss

open PackedArray

def apsSrcBindingTableSize : ℕ := 32

def apsDstBindingTableSize : ℕ := 32

def apsAddrMode16GroupEndpNotPresent : UInt8 := 1

def apsAddrMode64EndpPresent : UInt8 := 3

structure ApsBindSrcTable where
  srcAddr : ℕ
  srcEnd : UInt8
  clusterId : UInt16
  deriving DecidableEq

/-- The union of `zb_aps_bind_dst_table_t`, which `dst_addr_mode` tells
apart. -/
inductive ApsBindDst where
  | groupAddr (groupAddr : UInt16)
  | longAddr (dstAddr : ℕ) (dstEnd : UInt8)
  deriving DecidableEq

structure ApsBindDstTable where
  dst : ApsBindDst
  srcTableIndex : ℕ

structure ApsBindingTable where
  srcTable : ℕ → ApsBindSrcTable
  dstTable : ℕ → ApsBindDstTable
  srcNElements : ℕ
  dstNElements : ℕ

/-- `zb_apsme_binding_req_t`, with both readings of its union `dst_addr`. -/
structure ApsmeBindingReq where
  srcAddr : IeeeAddr
  srcEndpoint : UInt8
  clusterid : UInt16
  addrMode : UInt8
  dstAddrLong : IeeeAddr
  dstAddrShort : UInt16
  dstEndpoint : UInt8

inductive BindStatus where
  | ok
  | address (err : RetError)
  | invalidBinding
  | tableFull
  | illegalRequest
  deriving DecidableEq

def ApsBindingTable.zeroed : ApsBindingTable where
  srcTable _ := ⟨0, 0, 0⟩
  dstTable _ := ⟨.groupAddr 0, 0⟩
  srcNElements := 0
  dstNElements := 0

def ApsmeBindingReq.src (req : ApsmeBindingReq) (srcAddrRef : ℕ) :
    ApsBindSrcTable :=
  ⟨srcAddrRef, req.srcEndpoint, req.clusterid⟩

/-- `aps_find_src_ref`; its loop compares the row at 0 before it looks at the
number of rows. -/
def apsFindSrcRef (b : ApsBindingTable) (src : ApsBindSrcTable) : Option ℕ :=
  (List.range (max 1 b.srcNElements)).find? fun l => b.srcTable l == src

def bindingDst (g : AddrGlobals) (req : ApsmeBindingReq) :
    Option (AddrGlobals × Except BindStatus ApsBindDst) :=
  if req.addrMode = apsAddrMode64EndpPresent then
    (zbAddressByIeee g req.dstAddrLong true false).map fun
      | (g, .ok dstAddrRef) => (g, .ok (.longAddr dstAddrRef req.dstEndpoint))
      | (g, .error err) => (g, .error (.address err))
  else if req.addrMode = apsAddrMode16GroupEndpNotPresent then
    some (g, .ok (.groupAddr req.dstAddrShort))
  else some (g, .error .invalidBinding)

/-- The writes of a request to bind: a new source row if `s` is the first free
one, and a destination row. -/
def addBinding (b : ApsBindingTable) (src : ApsBindSrcTable) (s : ℕ)
    (dst : ApsBindDst) : ApsBindingTable :=
  let b :=
    if s = b.srcNElements then
      { b with
        srcTable := Function.update b.srcTable s src
        srcNElements := b.srcNElements + 1 }
    else b
  { b with
    dstTable := Function.update b.dstTable b.dstNElements ⟨dst, s⟩
    dstNElements := b.dstNElements + 1 }

def zbApsmeBindRequest (g : AddrGlobals) (b : ApsBindingTable) (req : ApsmeBindingReq) :
    Option (AddrGlobals × ApsBindingTable × BindStatus) := do
  let (g, found) ← zbAddressByIeee g req.srcAddr true false
  match found with
  | .error err => some (g, b, .address err)
  | .ok srcAddrRef =>
      let src := req.src srcAddrRef
      let s := (apsFindSrcRef b src).getD b.srcNElements
      if s < apsSrcBindingTableSize ∧ b.dstNElements < apsDstBindingTableSize then
        let (g, dst) ← bindingDst g req
        match dst with
        | .error status => some (g, b, status)
        | .ok dst => some (g, addBinding b src s dst, .ok)
      else some (g, b, .tableFull)

structure UnbindScan where
  dstTable : ℕ → ApsBindDstTable
  dstNElements : ℕ
  d : ℕ
  found : Bool

/-- The body of the loop: remove the row at `d`, or go on behind it. -/
def unbindScanRow (s : ℕ) (dst : ApsBindDst) (scan : UnbindScan) :
    Option UnbindScan :=
  let row := scan.dstTable scan.d
  if row.srcTableIndex = s ∧ row.dst = dst then
    if scan.dstNElements = 0 then none
    else
      let n := scan.dstNElements - 1
      some
        { scan with
          dstTable := closeGap scan.dstTable scan.d n
          dstNElements := n }
  else
    some
      { scan with
        d := scan.d + 1
        found := scan.found || row.srcTableIndex == s }

/-- `do ... while (d < dst_n_elements)` -/
def unbindScan (s : ℕ) (dst : ApsBindDst) : ℕ → UnbindScan → Option UnbindScan
  | 0, scan => some scan
  | rounds + 1, scan => do
      let scan ← unbindScanRow s dst scan
      if scan.d < scan.dstNElements then unbindScan s dst rounds scan
      else some scan

def ApsBindDstTable.renumber (s : ℕ) (row : ApsBindDstTable) :
    ApsBindDstTable :=
  { row with srcTableIndex := IndexedRows.shiftDown s row.srcTableIndex }

/-- Remove the row at `s` of the source table and correct the indexes -/
def dropSource (b : ApsBindingTable) (s : ℕ) : Option ApsBindingTable :=
  if b.srcNElements = 0 then none
  else
    some
      { b with
        srcTable := closeGap b.srcTable s (b.srcNElements - 1)
        srcNElements := b.srcNElements - 1
        dstTable := fun d =>
          if d < max 1 b.dstNElements then (b.dstTable d).renumber s
          else b.dstTable d }

def removeBinding (b : ApsBindingTable) (s : ℕ) (dst : ApsBindDst) :
    Option ApsBindingTable := do
  let scan ←
    unbindScan s dst (b.dstNElements + 1) ⟨b.dstTable, b.dstNElements, 0, false⟩
  let b := { b with dstTable := scan.dstTable, dstNElements := scan.dstNElements }
  if scan.found then some b else dropSource b s

def zbApsmeUnbindRequest (g : AddrGlobals) (b : ApsBindingTable) (req : ApsmeBindingReq) :
    Option (AddrGlobals × ApsBindingTable × BindStatus) := do
  let (g, found) ← zbAddressByIeee g req.srcAddr false false
  match found with
  | .error _ => some (g, b, .illegalRequest)
  | .ok srcAddrRef =>
      match apsFindSrcRef b (req.src srcAddrRef) with
      | none => some (g, b, .invalidBinding)
      | some s =>
          let (g, dst) ← bindingDst g req
          match dst with
          | .error status => some (g, b, status)
          | .ok dst => (removeBinding b s dst).map fun b => (g, b, .ok)

end Zboss
