import Zboss.CcmStar
import Zboss.NeighborTable
import Zboss.NetworkKeys
import Zboss.NwkFrame

/-!
# Security of network frames

`zb_nwk_secure_frame` and `zb_nwk_unsecure_frame` of `nwk_secur.c`.  Both
return `none` where the source asserts or accesses memory outside a buffer.
Scheduled callbacks are left out; the indication of a failure to the network
layer is written into the buffer as in the source.
-/

namespace Zboss

open BoundedMemory

def ccmNonce (aux : NwkAuxFrameHdr) : CcmNonce :=
  ⟨(aux.sourceAddress.toBytes ++ (htole32 aux.frameCounter ++ [aux.securControl])).toArray,
    rfl⟩

def auxPlace (nwkHdr hdrSize : ℕ) : Option ℕ :=
  if auxFrameHdrSize ≤ nwkHdr + hdrSize then some (nwkHdr + hdrSize - auxFrameHdrSize)
  else none

/-- The counter and the key number of the next frame, and the incremented
counters. -/
def nextFrameCounter (nib : Nib) (useSameKey : Bool) (keySeqNumber : UInt8) :
    Nib × UInt32 × UInt8 :=
  if useSameKey ∧ keySeqNumber ≠ nib.activeKeySeqNumber then
    ({ nib with prevOutgoingFrameCounter := nib.prevOutgoingFrameCounter + 1 },
      nib.prevOutgoingFrameCounter, keySeqNumber)
  else
    ({ nib with outgoingFrameCounter := nib.outgoingFrameCounter + 1 },
      nib.outgoingFrameCounter, nib.activeKeySeqNumber)

def fillAux (zg : Globals) (useSameKey : Bool) (keySeqNumber : UInt8) :
    Nib × NwkAuxFrameHdr :=
  let next := nextFrameCounter zg.nib useSameKey keySeqNumber
  (next.1,
    { securControl := nwkStdSecurControl
      frameCounter := next.2.1
      sourceAddress := zg.extendedAddress
      keySeqNumber := next.2.2 })

def sealFrame (aes128 : Aes128) (src : Buf) (macHdrSize hdrSize : ℕ) (dst : Buf)
    (key : CcmKey) (aux : NwkAuxFrameHdr) : Option Buf := do
  let nwkHdr := src.dataOffset.toNat + macHdrSize
  let stringA ← load src.buf nwkHdr hdrSize
  -- the unsigned difference of the lengths would wrap around
  if src.len.toNat < macHdrSize + hdrSize then none
  else do
    let stringM ←
      load src.buf (nwkHdr + hdrSize) (src.len.toNat - hdrSize - macHdrSize)
    let dst ←
      zbCcmEncryptNAuth aes128 key (ccmNonce aux) stringA stringM dst
    let dst ← zbBufSmartAllocLeft dst (UInt8.ofNat macHdrSize)
    let macHdr ← load src.buf src.dataOffset.toNat macHdrSize
    let dst ← dst.store dst.dataOffset.toNat macHdr
    let auxPos ← auxPlace (dst.dataOffset.toNat + macHdrSize) hdrSize
    dst.store auxPos [nwkStdSecurControlZeroedLevel]

def zbNwkSecureFrame (aes128 : Aes128) (zg : Globals) (src : Buf)
    (macHdrSize : ℕ) (dst : Buf) :
    Option (Globals × Buf × Buf × Except RetError Unit) := do
  let nwkHdr := src.dataOffset.toNat + macHdrSize
  let fctl ← src.buf[nwkHdr + 1]?
  let hdrSize := zbNwkHdrSize fctl
  let auxPos ← auxPlace nwkHdr hdrSize
  let old ← loadAux src.buf auxPos
  let (nib, aux) := fillAux zg src.useSameKey old.keySeqNumber
  let zg := { zg with nib := nib }
  let src ← src.store auxPos aux.toBytes
  match securNwkKeyBySeq zg.nib aux.keySeqNumber with
  | none => some (zg, src, dst, .error .error)
  | some key => do
      let dst ← sealFrame aes128 src macHdrSize hdrSize dst key aux
      some (zg, src, dst, .ok ())

inductive NwkCommandStatus where
  | badFrameCounter
  | badKeySequenceNumber
  | frameSecurityFailed

def NwkCommandStatus.code : NwkCommandStatus → UInt8
  | .badFrameCounter => 0x11
  | .badKeySequenceNumber => 0x12
  | .frameSecurityFailed => 0x12

/-- Writes a `zb_nlme_status_indication_t` to the end of the buffer. -/
def zbSecurNwkStatus (nsdu : Buf) (addrShort : ℕ) (status : NwkCommandStatus) :
    Option Buf := do
  let cmd ← zbGetBufTail nsdu 6
  nsdu.store cmd (status.code :: 0 :: 0 :: 0 :: htole16 addrShort)

structure NwkFrameHdr where
  hdrSize : ℕ
  auxPos : ℕ
  aux : NwkAuxFrameHdr
  srcAddr : ℕ

def readNwkHdr (nsdu : Buf) : Option NwkFrameHdr := do
  let nwkHdr := nsdu.dataOffset.toNat
  let fctl ← nsdu.buf[nwkHdr + 1]?
  let auxPos ← auxPlace nwkHdr (zbNwkHdrSize fctl)
  let aux ← loadAux nsdu.buf auxPos
  let byte0 ← nsdu.buf[nwkHdr + 4]?
  let byte1 ← nsdu.buf[nwkHdr + 5]?
  some
    { hdrSize := zbNwkHdrSize fctl
      auxPos := auxPos
      aux := aux
      srcAddr := letoh16 byte0 byte1 }

def senderRef (zg : Globals) (mhr : MacMhr) (sourceAddress : IeeeAddr)
    (junkRef : ℕ) : Option (Globals × Except RetError ℕ) :=
  if mhr.srcAddressingMode = addr16BitDevOrBroadcast then
    (zbAddressUpdate zg.addr sourceAddress mhr.srcAddr.addrShort false).map
      fun (addr, ret) => ({ zg with addr := addr }, ret)
  else if junkRef < ieeeAddrTableSize then some (zg, .ok junkRef)
  else none

def locateSender (zg : Globals) (mhr : MacMhr) (hdr : NwkFrameHdr)
    (junkRef : ℕ) : Option (Globals × Except RetError ℕ) := do
  let (zg, ret) ← senderRef zg mhr hdr.aux.sourceAddress junkRef
  match ret with
  | .ok addrRef => zbNwkNeighborGet zg addrRef (hdr.srcAddr = mhr.srcAddr.addrShort)
  | .error err => some (zg, .error err)

/-- A child is not authenticated until the frame is, and another key number
restarts the counter. -/
def NeighborTblEnt.expectFrame (nbe : NeighborTblEnt) (keySeqNumber : UInt8) :
    NeighborTblEnt :=
  let nbe :=
    if nbe.relationship = .child then { nbe with relationship := .unauthenticatedChild }
    else nbe
  if nbe.keySeqNumber ≠ keySeqNumber then
    { nbe with incomingFrameCounter := 0, keySeqNumber := keySeqNumber }
  else nbe

def checkFrame (nbe : NeighborTblEnt) (key : Option CcmKey) (aux : NwkAuxFrameHdr) :
    NeighborTblEnt × Except NwkCommandStatus CcmKey :=
  let nbe := nbe.expectFrame aux.keySeqNumber
  match key with
  | none => (nbe, .error .badKeySequenceNumber)
  | some key =>
      if nbe.incomingFrameCounter > aux.frameCounter ∨
          nbe.incomingFrameCounter = 0xFFFFFFFF then
        (nbe, .error .badFrameCounter)
      else ({ nbe with incomingFrameCounter := aux.frameCounter }, .ok key)

/-- `none` where the frame is shorter than its header, and the difference of
the lengths wraps around. -/
def openFrame (aes128 : Aes128) (nsdu : Buf) (hdr : NwkFrameHdr) (key : CcmKey) :
    Option (Buf × Except RetError Unit) :=
  if nsdu.len.toNat < hdr.hdrSize then none
  else if nsdu.len.toNat - hdr.hdrSize < zbCcmM then some (nsdu, .error .error)
  else do
    let nsdu ← nsdu.store hdr.auxPos [nwkStdSecurControl]
    zbCcmDecryptNAuth aes128 key
      (ccmNonce { hdr.aux with securControl := nwkStdSecurControl })
      nsdu hdr.hdrSize (nsdu.len.toNat - hdr.hdrSize)

def reinsertMhr (nsdu : Buf) (mhr : MacMhr) (mhrLen : UInt8) : Option Buf := do
  let nsdu ← zbBufSmartAllocLeft nsdu (mhrLen + 1)
  let nsdu ← nsdu.store (nsdu.dataOffset.toNat + 1) (zbMacFillMhr mhr)
  zbBufCutLeft { nsdu with macHdrOffset := nsdu.dataOffset + 1 } (mhrLen + 1)

def NeighborTblEnt.confirmChild (nbe : NeighborTblEnt) : NeighborTblEnt :=
  if nbe.relationship = .unauthenticatedChild then { nbe with relationship := .child }
  else nbe

def implicitKeySwitch (zg : Globals) (keySeqNumber : UInt8) (random : CcmKey) :
    Globals :=
  let diff := keySeqNumber - zg.nib.activeKeySeqNumber
  if diff ≠ 0 ∧ diff < 127 then securNwkKeySwitch zg keySeqNumber random
  else zg

def Globals.setRow (zg : Globals) (n : ℕ) (nbe : NeighborTblEnt) : Globals :=
  { zg with neighbor := zg.neighbor.setRow n nbe }

def unsecureFrom (aes128 : Aes128) (zg : Globals) (nsdu : Buf) (mhr : MacMhr)
    (mhrLen : UInt8) (random : CcmKey) (hdr : NwkFrameHdr) (n : ℕ) :
    Option (Globals × Buf × Except RetError Unit) :=
  match checkFrame (zg.neighbor.baseNeighbor n)
      (securNwkKeyBySeq zg.nib hdr.aux.keySeqNumber) hdr.aux with
  | (nbe, .error status) => do
      let nsdu ← zbSecurNwkStatus nsdu mhr.srcAddr.addrShort status
      some (zg.setRow n nbe, nsdu, .error .error)
  | (nbe, .ok key) => do
      match ← openFrame aes128 nsdu hdr key with
      | (nsdu, .error err) => do
          let nsdu ←
            zbSecurNwkStatus nsdu mhr.srcAddr.addrShort .frameSecurityFailed
          some (zg.setRow n nbe, nsdu, .error err)
      | (nsdu, .ok ()) => do
          let nsdu ← reinsertMhr nsdu mhr mhrLen
          let keySeqNumber ← nsdu.buf[hdr.auxPos + 13]?
          some (implicitKeySwitch (zg.setRow n nbe.confirmChild) keySeqNumber random,
              nsdu, .ok ())

def zbNwkUnsecureFrame (aes128 : Aes128) (zg : Globals) (nsdu : Buf)
    (mhr : MacMhr) (mhrLen : UInt8) (junkRef : ℕ) (random : CcmKey) :
    Option (Globals × Buf × Except RetError Unit) :=
  if zg.authenticated then do
    let hdr ← readNwkHdr nsdu
    match ← locateSender zg mhr hdr junkRef with
    | (zg, .error err) => do
        let nsdu ←
          zbSecurNwkStatus nsdu mhr.srcAddr.addrShort .frameSecurityFailed
        some (zg, nsdu, .error err)
    | (zg, .ok n) => unsecureFrom aes128 zg nsdu mhr mhrLen random hdr n
  else some (zg, nsdu, .error .error)

end Zboss
