import Zboss.NwkMain
import Zboss.PacketBuffer

/-!
# Requests with cluster lists

`zdo_match_desc_res` in `zdo_disc_srv.c` and `zb_zdo_end_device_bind_handler`
in `zdo_bind_manage.c`, with the memory they access.  The build is the release
build for the 8051: `ZB_ASSERT` is empty and the host order is big endian.
-/

namespace Zboss

open Function

def maxEpNumber : ℕ := 1

def zdoMaxClusterList : ℕ := 15

/-- A received ZDP frame: where it lies in the array of its buffer, and the
memory by its distance from the begin of that array. -/
structure ZdpFrame where
  mem : ℤ → UInt8
  dataOffset : ℕ
  len : ℕ
  fits : dataOffset + len ≤ ioBufSize

def ZdpFrame.byte (frame : ZdpFrame) (index : ℕ) : UInt8 :=
  frame.mem (frame.dataOffset + index)

def ZdpFrame.word (frame : ZdpFrame) (index : ℕ) : ℕ :=
  (frame.byte index).toNat + 256 * (frame.byte (index + 1)).toNat

/-- `app_cluster_list` is split by its two counts. -/
structure SimpleDesc where
  endpoint : UInt8
  appProfileId : ℕ
  appInputClusters : List ℕ
  appOutputClusters : List ℕ

structure SimpleDescList where
  list : List SimpleDesc
  length_le : list.length ≤ maxEpNumber

inductive BufAccess where
  | read (address : ℤ)
  | write (address : ℤ)
  deriving DecidableEq

def zbHtole16 (mem : ℤ → UInt8) (dst src : ℤ) : (ℤ → UInt8) × List BufAccess :=
  let high := update mem dst (mem (src + 1))
  (update high (dst + 1) (high src),
    [.read (src + 1), .write dst, .read src, .write (dst + 1)])

def copyClusterId (mem : ℤ → UInt8) (dst src : ℤ) : ℕ → (ℤ → UInt8) × List BufAccess
  | 0 => (mem, [])
  | num + 1 =>
      let (mem, first) := zbHtole16 mem dst src
      let (mem, rest) := copyClusterId mem (dst + 2) (src + 2) num
      (mem, first ++ rest)

structure EpList where
  epList : ℕ → UInt8
  epNum : ℕ
  written : List ℕ

namespace EpList

def shift (eps : EpList) (index : ℕ) : ℕ → EpList
  | 0 => eps
  | count + 1 =>
      shift { eps with
        epList := update eps.epList (index + count + 1) (eps.epList (index + count))
        written := eps.written ++ [index + count + 1] } index count

/-- `add_ep_sorted`; the list may be compared at `ep_num`, where it was not
written to. -/
def addEpSorted (eps : EpList) (endpoint : UInt8) : EpList :=
  let index := ((List.range eps.epNum).find? fun i =>
    endpoint ≤ eps.epList i).getD eps.epNum
  if eps.epList index ≠ endpoint then
    let shifted := eps.shift index (eps.epNum - index)
    { epList := update shifted.epList index endpoint
      epNum := eps.epNum + 1
      written := shifted.written ++ [index] }
  else eps

end EpList

inductive MatchDescStatus where
  | success
  | noDescriptor

/-- `header` are the accesses before the tail of the buffer is taken, `lists`
those of the copy which is placed there. -/
structure MatchDescRun where
  header : List BufAccess
  lists : List BufAccess
  eps : EpList
  status : MatchDescStatus

/-- Whether a descriptor has one of the clusters, in the two loops over `j` and
`k`, which end with the first one that is found. -/
def SimpleDesc.offers
    (desc : SimpleDesc) (profileId : ℕ) (inClusters outClusters : List ℕ) :
    Bool :=
  decide (desc.appProfileId = profileId) &&
    (desc.appInputClusters.any (fun cluster => inClusters.contains cluster) ||
      desc.appOutputClusters.any fun cluster => outClusters.contains cluster)

/-- `zdo_match_desc_res`; `stack` is what `ep_list` holds before. -/
def zdoMatchDescRes (shortAddress : ℕ) (descs : SimpleDescList) (stack : ℕ → UInt8)
    (frame : ZdpFrame) : MatchDescRun :=
  let body : ℤ := frame.dataOffset
  let numIn := (frame.byte 5).toNat
  let numOut := (frame.byte (6 + 2 * numIn)).toNat
  -- `zb_get_buf_tail` takes its size as a byte
  let tail : ℤ := ioBufSize - ↑((numIn + numOut) * 2 % 256)
  let (mem, inCopy) := copyClusterId frame.mem tail (body + 6) numIn
  -- `copy_cluster_id` returned the end of the copy, not of the list it copied
  let apsBody := tail + 2 * numIn + 1
  let (mem, outCopy) := copyClusterId mem (tail + 2 * numIn) apsBody numOut
  let clusterId (k : ℕ) : ℕ :=
    256 * (mem (tail + 2 * k)).toNat + (mem (tail + 2 * k + 1)).toNat
  let inClusters := (List.range numIn).map clusterId
  let outClusters := (List.range numOut).map fun k => clusterId (numIn + k)
  let eps : EpList := ⟨stack, 0, []⟩
  let eps :=
    if shortAddress ≠ frame.word 1 ∧ frame.word 1 ≠ nwkBroadcastRxOnWhenIdle then eps
    else
      descs.list.foldl (fun eps desc =>
        if desc.offers (frame.word 3) inClusters outClusters then
          eps.addEpSorted desc.endpoint else eps) eps
  { header := (List.range 6 ++ [6 + 2 * numIn]).map fun index =>
      .read (body + index)
    lists := inCopy ++ outCopy
    eps
    status := if eps.epNum = 0 then .noDescriptor else .success }

inductive BindDev where
  | dev1
  | dev2
  deriving DecidableEq

/-- A byte of a request is read, or an entry of `cluster_list` is written. -/
inductive BindAccess where
  | read (device : BindDev) (index : ℕ)
  | store (device : BindDev) (index cluster : ℕ)

structure ClusterList where
  device : BindDev
  frame : ZdpFrame
  start : ℕ
  num : ℕ

namespace ClusterList

def cluster (list : ClusterList) (i : ℕ) : ℕ :=
  list.frame.word (list.start + 2 * i)

def reads (list : ClusterList) (i : ℕ) : List BindAccess :=
  [.read list.device (list.start + 2 * i), .read list.device (list.start + 2 * i + 1)]

end ClusterList

/-- The loop over `j`, from `j` on for `rest` times, with `cluster_num`. -/
def checkClusterRow (device : BindDev) (list1 list2 : ClusterList) (i : ℕ) :
    ℕ → ℕ → ℕ → ℕ × List BindAccess
  | 0, _, clusterNum => (clusterNum, [])
  | rest + 1, j, clusterNum =>
      let compared := list1.reads i ++ list2.reads j
      if list1.cluster i = list2.cluster j then
        let stored := compared ++ list1.reads i ++
          [.store device clusterNum (list1.cluster i)]
        let clusterNum := (clusterNum + 1) % 256
        if zdoMaxClusterList ≤ clusterNum then (clusterNum, stored)
        else
          let (clusterNum, more) :=
            checkClusterRow device list1 list2 i rest (j + 1) clusterNum
          (clusterNum, stored ++ more)
      else
        let (clusterNum, more) :=
          checkClusterRow device list1 list2 i rest (j + 1) clusterNum
        (clusterNum, compared ++ more)

def checkClusterRows (device : BindDev) (list1 list2 : ClusterList) :
    ℕ → ℕ → ℕ → ℕ × List BindAccess
  | 0, _, clusterNum => (clusterNum, [])
  | rest + 1, i, clusterNum =>
      let (clusterNum, row) := checkClusterRow device list1 list2 i list2.num 0 clusterNum
      let (clusterNum, more) := checkClusterRows device list1 list2 rest (i + 1) clusterNum
      (clusterNum, row ++ more)

def checkClusterList (device : BindDev) (list1 list2 : ClusterList) :
    ℕ × List BindAccess :=
  checkClusterRows device list1 list2 list1.num 0 0

inductive EndDeviceBindResult where
  | waiting
  | invalidEp
  | timeout
  | noMatch
  | success

namespace ZdpFrame

def numInCluster (frame : ZdpFrame) : ℕ := (frame.byte 14).toNat

def numOutCluster (frame : ZdpFrame) : ℕ :=
  (frame.byte (15 + 2 * frame.numInCluster)).toNat

def inClusterList (frame : ZdpFrame) (device : BindDev) : ClusterList :=
  ⟨device, frame, 15, frame.numInCluster⟩

def outClusterList (frame : ZdpFrame) (device : BindDev) : ClusterList :=
  ⟨device, frame, 16 + 2 * frame.numInCluster, frame.numOutCluster⟩

/-- `src_endp` between `ZB_MIN_ENDPOINT_NUMBER` and `ZB_MAX_ENDPOINT_NUMBER`. -/
def validEndp (frame : ZdpFrame) : Bool :=
  decide (1 ≤ (frame.byte 11).toNat ∧ (frame.byte 11).toNat ≤ 240)

end ZdpFrame

/-- `zb_zdo_end_device_bind_handler`.  `first` is the request which waits in
`ZB_ZDO_BIND_DEV_1`, `busy` says that `ZB_ZDO_BIND_DEV_2` has one. -/
def zdoEndDeviceBindHandler (first : Option ZdpFrame) (busy : Bool) (frame : ZdpFrame) :
    EndDeviceBindResult × List BindAccess :=
  -- `zb_zdo_end_device_bind_resp` reads the tsn
  let answered : List BindAccess := [.read .dev2 0]
  let both : List BindAccess := [.read .dev2 0, .read .dev1 0]
  let endp : List BindAccess := [.read .dev2 11]
  if frame.validEndp then
    match first with
    | none => (.waiting, endp)
    | some first =>
        if busy then (.timeout, endp ++ answered)
        else
          let profiles : List BindAccess :=
            [.read .dev1 12, .read .dev1 13, .read .dev2 12, .read .dev2 13]
          if first.word 12 = frame.word 12 then
            let counts : List BindAccess :=
              [.read .dev1 14, .read .dev2 14, .read .dev1 (15 + 2 * first.numInCluster),
                .read .dev2 (15 + 2 * frame.numInCluster)]
            let (num1, check1) := checkClusterList .dev1
              (first.outClusterList .dev1) (frame.inClusterList .dev2)
            let (num2, check2) := checkClusterList .dev2
              (first.inClusterList .dev1) (frame.outClusterList .dev2)
            let checked := endp ++ profiles ++ counts ++ check1 ++ check2
            if num1 = 0 ∧ num2 = 0 then (.noMatch, checked ++ both)
            else
              let saved : List BindAccess :=
                [.read .dev1 1, .read .dev1 2, .read .dev1 11,
                  .read .dev2 1, .read .dev2 2, .read .dev2 11]
              (.success, checked ++ saved ++ both)
          else (.noMatch, endp ++ profiles ++ both)
  else (.invalidEp, endp ++ answered)

end Zboss
