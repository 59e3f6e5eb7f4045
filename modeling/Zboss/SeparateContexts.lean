import Zboss.ZdoContexts

/-!
# Procedures which share a context

A procedure finds its own context as long as no other one has begun after it.
Then a scan request has its notifications, one for each scan, and a look-up has
its callback.
-/

namespace Zboss

open Option List TransitionSystem

def NwkUpdateReq.Owns (req : NwkUpdateReq) (notify : EdScanNotify) : Prop :=
  notify.dstAddr = req.srcAddr ∧ notify.tsn = req.tsn ∧
    ∃ unscanned, notify.scannedChannels = req.scanChannels &&& ~~~unscanned

def NwkUpdateReq.answer (req : NwkUpdateReq) : Option UInt8 :=
  if req.scanDuration = 0xfe ∨ req.scanDuration = 0xff ∨
      ¬req.srcAddr.toNat < ZdpServer.broadcastLowPowerRouter then none
  else if req.scanDuration ≤ 5 then
    if 5 < req.scanCount then some ZdpStatus.invRequesttype
    else if 0 < req.scanCount then none
    else some ZdpStatus.success
  else if req.unicast then some ZdpStatus.invalidRequest
  else none

namespace ZdoThread

/-- A request is scanned and notified for as it says, once for each scan when it
has ended, and a look-up calls its callback when it ends. -/
def Right (thread : ZdoThread) : Prop :=
  match thread.procedure with
  | .scan req =>
      (∀ notify ∈ thread.notified, req.Owns notify) ∧
        (∀ channels duration, thread.job = some (.edScan channels duration) →
          channels = req.scanChannels ∧ duration = req.scanDuration) ∧
        thread.notified.length ≤ req.scanCount.toNat ∧
        (thread.job = none → thread.notified.length = req.scanCount.toNat)
  | .lookUp ctx => thread.called = if thread.job.isNone then ctx.calls else []
  | _ => True

def Fits (thread : ZdoThread) : Prop :=
  ∀ job, thread.job = some job → match thread.procedure, job with
    | .scan _, .startEdScan => True
    | .scan _, .edScan _ _ => True
    | .scan _, .nwkUpdNotify _ => True
    | .check, _ => True
    | .discovery, .discoveryScan => True
    | .lookUp _, .getPeerShortAddr => True
    | .lookUp _, .shortAddrResp _ => True
    | _, _ => False

end ZdoThread

def ZdoJob.scans : ZdoJob → ℕ
  | .startEdScan => 0
  | _ => 1

namespace ZdoCtxRun

variable {M : Type} (layout : ZdoCtxLayout M)

structure Separate (run : ZdoCtxRun M) : Prop where
  right : ∀ thread ∈ run.threads, thread.Right
  counter : run.wrapped = false

def IsCheck (run : ZdoCtxRun M) (i : ℕ) : Prop :=
  ∃ thread, run.threads[i]? = some thread ∧ thread.procedure = .check

/-- A step which reads or writes the context is one of the procedure which has
begun last, a scan which does not succeed is the last one, a request is answered
at once only while there is no scan and, with success, the scan count is 0, and
only the channel manager notifies with an acknowledgement. -/
def Undisturbed (run : ZdoCtxRun M) : ZdoCtxEvent → Prop
  | .mgmtNwkUpdate req _ => ∀ status ∈ req.answer, run.zdoEdScan = false ∧
      (status = ZdpStatus.success → (layout.nwkUpdReq run.ctx).scanCount = 0)
  | .startEdScan i => run.owner = some i
  | .edScanConfirm i status _ =>
      (run.owner = some i ∧ (status = ZdpStatus.success ∨
        (layout.nwkUpdReq run.ctx).scanCount = 0)) ∨
      (run.IsCheck i ∧ run.zdoEdScan = false)
  | .nwkUpdNotify i _ => run.owner = some i ∧ (run.sendWithAck = true → run.IsCheck i)
  | .channelCheckScanResult i busy _ _ => busy = true → run.owner = some i
  | .discoveryConfirm i => run.owner = some i
  | .getPeerShortAddr i => run.owner = some i
  | .peerShortAddr i => run.owner = some i
  | _ => True

def Current (run : ZdoCtxRun M) (thread : ZdoThread) : Prop :=
  ∀ job, thread.job = some job →
    let ctx := layout.nwkUpdReq run.ctx
    match thread.procedure with
    | .scan req =>
        run.zdoEdScan = true ∧ ctx.scanChannels = req.scanChannels ∧
          ctx.scanDuration = req.scanDuration ∧ ctx.dstAddr = req.srcAddr ∧
          ctx.tsn = req.tsn ∧
          thread.notified.length + job.scans + ctx.scanCount.toNat = req.scanCount.toNat ∧
          (job = .startEdScan → ctx.scanCount ≠ 0) ∧
          ∀ notify, job = .nwkUpdNotify notify → req.Owns notify ∧
            (notify.status = ZdpStatus.success ∨ ctx.scanCount = 0)
    | .check => job = .startEdScan → ctx.scanCount ≠ 0
    | .lookUp own => layout.shortAddr run.ctx = own
    | _ => True

structure Tidy (run : ZdoCtxRun M) : Prop where
  right : ∀ (i : ℕ) (thread : ZdoThread), run.threads[i]? = some thread → thread.Right
  fits : ∀ (i : ℕ) (thread : ZdoThread), run.threads[i]? = some thread → thread.Fits
  current : ∀ (i : ℕ) (thread : ZdoThread), run.owner = some i →
    run.threads[i]? = some thread → run.Current layout thread
  owner : ∀ i, run.owner = some i → i < run.threads.length
  counter : run.wrapped = false

variable {layout} {run next : ZdoCtxRun M} {i : ℕ} {thread : ZdoThread}

theorem Tidy.separate (htidy : run.Tidy layout) : run.Separate where
  right thread hmem := by
    obtain ⟨i, hi⟩ := List.getElem?_of_mem hmem
    exact htidy.right i thread hi
  counter := htidy.counter

theorem getElem?_of_append_singleton {threads after : List ZdoThread}
    (hthreads : after = threads ++ [thread]) (j : ℕ) (other : ZdoThread)
    (hother : after[j]? = some other) :
    threads[j]? = some other ∨ (threads.length ≤ j ∧ other = thread) := by
  rw [hthreads, List.getElem?_append] at hother
  split at hother
  case isTrue => exact .inl hother
  case isFalse hle =>
    obtain ⟨hj, rfl⟩ := List.getElem?_eq_some_iff.mp hother
    exact .inr ⟨Nat.not_lt.mp hle, by simp⟩

theorem Tidy.append (htidy : run.Tidy layout)
    (hthreads : next.threads = run.threads ++ [thread])
    (howner : next.owner = some run.threads.length)
    (hcounter : next.wrapped = false) (hright : thread.Right)
    (hfits : thread.Fits) (hcurrent : next.Current layout thread) :
    next.Tidy layout := by
  have hget := getElem?_of_append_singleton hthreads
  constructor
  case right =>
    intro j other hother
    rcases hget j other hother with hold | ⟨-, rfl⟩
    · exact htidy.right j other hold
    · exact hright
  case fits =>
    intro j other hother
    rcases hget j other hother with hold | ⟨-, rfl⟩
    · exact htidy.fits j other hold
    · exact hfits
  case current =>
    intro j other hj hother
    rw [howner] at hj
    obtain rfl := some.inj hj
    rw [hthreads, List.getElem?_concat_length] at hother
    obtain rfl := some.inj hother
    exact hcurrent
  case owner =>
    intro j hj
    rw [howner] at hj
    obtain rfl := some.inj hj
    simp [hthreads]
  case counter => exact hcounter

theorem Tidy.set (htidy : run.Tidy layout)
    (hthreads : next.threads = run.threads.set i thread)
    (howner : next.owner = run.owner) (hcounter : next.wrapped = false)
    (hright : thread.Right) (hfits : thread.Fits)
    (hcurrent : run.owner = some i → next.Current layout thread)
    (hothers : run.owner = some i ∨
      (next.ctx = run.ctx ∧ next.zdoEdScan = run.zdoEdScan)) :
    next.Tidy layout := by
  have hget : ∀ (j : ℕ) (other : ZdoThread), next.threads[j]? = some other →
      (j ≠ i ∧ run.threads[j]? = some other) ∨ (j = i ∧ other = thread) := by
    intro j other hother
    rw [hthreads, List.getElem?_set] at hother
    split at hother
    case isTrue heq =>
      split at hother
      · exact .inr ⟨heq.symm, (some.inj hother).symm⟩
      · cases hother
    case isFalse hne => exact .inl ⟨Ne.symm hne, hother⟩
  constructor
  case right =>
    intro j other hother
    rcases hget j other hother with ⟨-, hold⟩ | ⟨-, rfl⟩
    · exact htidy.right j other hold
    · exact hright
  case fits =>
    intro j other hother
    rcases hget j other hother with ⟨-, hold⟩ | ⟨-, rfl⟩
    · exact htidy.fits j other hold
    · exact hfits
  case current =>
    intro j other hj hother
    rw [howner] at hj
    rcases hget j other hother with ⟨hne, hold⟩ | ⟨rfl, rfl⟩
    · rcases hothers with hi | ⟨hctx, hflag⟩
      · exact absurd (some.inj (hj.symm.trans hi)) hne
      · have hcurrent' := htidy.current j other hj hold
        rw [Current] at hcurrent' ⊢
        rw [hctx, hflag]
        exact hcurrent'
    · exact hcurrent hj
  case owner =>
    intro j hj
    rw [howner] at hj
    rw [hthreads, length_set]
    exact htidy.owner j hj
  case counter => exact hcounter

theorem Tidy.congr (htidy : run.Tidy layout)
    (hthreads : next.threads = run.threads) (howner : next.owner = run.owner)
    (hcounter : next.wrapped = run.wrapped) (hctx : next.ctx = run.ctx)
    (hflag : next.zdoEdScan = run.zdoEdScan) : next.Tidy layout where
  right := hthreads ▸ htidy.right
  fits := hthreads ▸ htidy.fits
  current j other hj hother := by
    have hcurrent := htidy.current j other (howner ▸ hj) (hthreads ▸ hother)
    rw [Current] at hcurrent ⊢
    rw [hctx, hflag]
    exact hcurrent
  owner := hthreads ▸ howner ▸ htidy.owner
  counter := hcounter.trans htidy.counter

/-! ## Steps of the threads -/

section Steps

theorem toNat_pred {count : UInt8} (hcount : count ≠ 0) :
    (count - 1).toNat + 1 = count.toNat := by
  have hpos : 1 ≤ count := by
    rw [UInt8.le_iff_toNat_le]
    exact Nat.one_le_iff_ne_zero.mpr fun h => hcount (UInt8.toNat.inj h)
  rw [UInt8.toNat_sub_of_le _ _ hpos]
  exact Nat.sub_add_cancel (UInt8.le_iff_toNat_le.mp hpos)

theorem Tidy.startEdScan (htidy : run.Tidy layout) (howner : run.owner = some i)
    (hthread : run.threads[i]? = some thread)
    (hjob : thread.job = some .startEdScan) :
    (run.zbStartEdScan layout i thread).Tidy layout := by
  have hright := htidy.right i thread hthread
  have hcurrent := htidy.current i thread howner hthread _ hjob
  have hfits := htidy.fits i thread hthread _ hjob
  rw [ZdoThread.Right] at hright
  cases hprocedure : thread.procedure with
  | scan req =>
    simp only [hprocedure] at hright hcurrent
    obtain ⟨hnotified, -, hle, -⟩ := hright
    obtain ⟨hflag, hchannels, hduration, hdst, htsn, hleft, hcount, -⟩ := hcurrent
    have hnonzero := hcount trivial
    refine htidy.set rfl rfl ?hcounter ?hright ?hfits ?hcurrent (.inl howner)
    case hcounter => simp [zbStartEdScan, setThread, htidy.counter, hnonzero]
    case hright =>
      simp only [ZdoThread.Right, hprocedure]
      refine ⟨hnotified, ?_, hle, nofun⟩
      rintro channels duration ⟨⟩
      exact ⟨hchannels, hduration⟩
    case hfits =>
      rintro job ⟨⟩
      simp only [hprocedure]
    case hcurrent =>
      rintro - job ⟨⟩
      simp only [hprocedure, zbStartEdScan, layout.nwkUpdReq_set]
      refine ⟨hflag, hchannels, hduration, hdst, htsn, ?_, nofun, nofun⟩
      have hpred := toNat_pred hnonzero
      simp only [ZdoJob.scans] at hleft ⊢
      omega
  | check =>
    simp only [hprocedure] at hcurrent
    have hnonzero := hcurrent trivial
    refine htidy.set rfl rfl ?hcounter ?hright ?hfits ?hcurrent (.inl howner)
    case hcounter => simp [zbStartEdScan, setThread, htidy.counter, hnonzero]
    case hright => simp only [ZdoThread.Right, hprocedure]
    case hfits =>
      rintro job ⟨⟩
      simp only [hprocedure]
    case hcurrent =>
      rintro - job ⟨⟩
      simp [hprocedure]
  | _ => simp only [hprocedure] at hfits

theorem right_notified {other : ZdoThread} {req : NwkUpdateReq}
    {notify : EdScanNotify} (hright : thread.Right)
    (hprocedure : thread.procedure = .scan req) (howns : req.Owns notify)
    (hother : other.procedure = .scan req)
    (hnotified : other.notified = thread.notified ++ [notify])
    (hscan : ∀ channels duration, other.job ≠ some (.edScan channels duration))
    (hle : thread.notified.length + 1 ≤ req.scanCount.toNat)
    (hend : other.job = none →
      thread.notified.length + 1 = req.scanCount.toNat) : other.Right := by
  rw [ZdoThread.Right, hprocedure] at hright
  rw [ZdoThread.Right, hother]
  simp only [hnotified, length_append, length_singleton]
  refine ⟨?_, fun channels duration h => absurd h (hscan channels duration), hle, hend⟩
  intro sent hsent
  rcases mem_append.mp hsent with hold | hnew
  · exact hright.1 sent hold
  · rw [mem_singleton.mp hnew]
    exact howns

theorem Tidy.nwkUpdNotify (htidy : run.Tidy layout)
    (howner : run.owner = some i) (hthread : run.threads[i]? = some thread)
    {notify : EdScanNotify} (hjob : thread.job = some (.nwkUpdNotify notify))
    (hack : run.sendWithAck = true → run.IsCheck i) (reqTsn : UInt8) :
    ((run.zbZdoNwkUpdNotify layout thread notify reqTsn).1.setThread i
      (run.zbZdoNwkUpdNotify layout thread notify reqTsn).2).Tidy layout := by
  have hright := htidy.right i thread hthread
  have hcurrent := htidy.current i thread howner hthread _ hjob
  have hfits := htidy.fits i thread hthread _ hjob
  refine htidy.set rfl rfl htidy.counter ?hright ?hfits ?hcurrent (.inl howner)
  all_goals simp only [zbZdoNwkUpdNotify]
  all_goals cases hprocedure : thread.procedure <;>
    simp only [hprocedure, ZdoJob.scans] at hcurrent hfits
  case hright.scan req =>
    obtain ⟨-, -, -, -, -, hleft, -, hnotify⟩ := hcurrent
    obtain ⟨howns, hstatus⟩ := hnotify notify rfl
    have hplain : ¬ run.sendWithAck = true := by
      intro hset
      obtain ⟨other, hother, hcheck⟩ := hack hset
      obtain rfl := some.inj (hthread.symm.trans hother)
      rw [hprocedure] at hcheck
      cases hcheck
    rw [if_neg hplain]
    refine right_notified hright hprocedure howns rfl rfl ?_ (by omega) ?_
    · intro channels duration hscan
      simp only at hscan
      split at hscan <;> cases hscan
    · intro hend
      simp only at hend
      split at hend
      case isTrue => cases hend
      case isFalse hmore =>
        simp only [scansAgain, decide_eq_true_eq] at hmore
        have hzero : (layout.nwkUpdReq run.ctx).scanCount = 0 := by
          rcases hstatus with hsuccess | hzero
          · exact not_not.mp fun h => hmore ⟨hsuccess, h⟩
          · exact hzero
        rw [hzero] at hleft
        exact hleft
  case hcurrent.scan req =>
    obtain ⟨-, hchannels, hduration, hdst, htsn, hleft, -, -⟩ := hcurrent
    rintro - job hnext
    simp only at hnext
    split at hnext
    case isFalse => cases hnext
    case isTrue hmore =>
      obtain rfl := some.inj hnext
      have hnonzero := (of_decide_eq_true hmore).2
      simp only [setThread, ZdoJob.scans, length_append, length_singleton]
      exact ⟨hmore, hchannels, hduration, hdst, htsn, hleft, fun _ => hnonzero, nofun⟩
  case hfits.scan req =>
    intro job hnext
    simp only at hnext
    split at hnext <;> cases hnext
    trivial
  case hright.check => trivial
  case hfits.check => exact fun _ _ => trivial
  case hcurrent.check =>
    rintro - job hnext
    simp only at hnext
    split at hnext
    case isFalse => cases hnext
    case isTrue hmore => exact fun _ => (of_decide_eq_true hmore).2

theorem Tidy.setCheck (htidy : run.Tidy layout) {other : ZdoThread}
    (hthreads : next.threads = run.threads.set i other)
    (howner : next.owner = run.owner) (hcounter : next.wrapped = run.wrapped)
    (hcheck : other.procedure = .check) (hjob : other.job ≠ some .startEdScan)
    (hothers : run.owner = some i ∨
      (next.ctx = run.ctx ∧ next.zdoEdScan = run.zdoEdScan)) :
    next.Tidy layout := by
  refine htidy.set hthreads howner (hcounter.trans htidy.counter) ?hright ?hfits
    ?hcurrent hothers
  case hright => rw [ZdoThread.Right, hcheck]; trivial
  case hfits =>
    intro job _
    rw [hcheck]
    trivial
  case hcurrent =>
    intro _ job hwaits
    simp only [hcheck]
    rintro rfl
    exact absurd hwaits hjob

theorem zbNlmeEdScanConfirm_procedure (layout : ZdoCtxLayout M)
    (run : ZdoCtxRun M) (thread : ZdoThread) (status : UInt8)
    (unscannedChannels : UInt32) :
    let other := run.zbNlmeEdScanConfirm layout thread status unscannedChannels
    other.procedure = thread.procedure ∧ other.job ≠ some .startEdScan := by
  dsimp only
  rw [zbNlmeEdScanConfirm]
  split
  · exact ⟨rfl, nofun⟩
  · split <;> exact ⟨rfl, nofun⟩

section

variable (htidy : run.Tidy layout)

include htidy

theorem Tidy.edScanConfirm
    (howner : run.owner = some i) (hthread : run.threads[i]? = some thread)
    {channels : UInt32} {duration : UInt8}
    (hjob : thread.job = some (.edScan channels duration))
    {status : UInt8} {unscannedChannels : UInt32}
    (hstatus : status = ZdpStatus.success ∨ (layout.nwkUpdReq run.ctx).scanCount = 0) :
    (run.setThread i (run.zbNlmeEdScanConfirm layout thread status
      unscannedChannels)).Tidy layout := by
  have hright := htidy.right i thread hthread
  have hcurrent := htidy.current i thread howner hthread _ hjob
  have hfits := htidy.fits i thread hthread _ hjob
  cases hprocedure : thread.procedure <;>
    simp only [hprocedure, ZdoJob.scans] at hcurrent hfits
  case check =>
    obtain ⟨hsame, hwaits⟩ := zbNlmeEdScanConfirm_procedure layout
      run thread status unscannedChannels
    exact htidy.setCheck rfl rfl rfl (hsame.trans hprocedure) hwaits (.inl howner)
  case scan req =>
    obtain ⟨hflag, hchannels, hduration, hdst, htsn, hleft, -, -⟩ := hcurrent
    rw [ZdoThread.Right, hprocedure] at hright
    obtain ⟨hnotified, -, hle, -⟩ := hright
    rw [zbNlmeEdScanConfirm, if_pos hflag]
    refine htidy.set rfl rfl htidy.counter ?hright ?hfits ?hcurrent (.inl howner)
    case hright =>
      rw [ZdoThread.Right]
      simp only [hprocedure]
      exact ⟨hnotified, nofun, hle, nofun⟩
    case hfits =>
      rintro job ⟨⟩
      simp only [hprocedure]
    case hcurrent =>
      rintro - job ⟨⟩
      simp only [setThread, hprocedure, ZdoJob.scans]
      refine ⟨hflag, hchannels, hduration, hdst, htsn, hleft, nofun, ?_⟩
      rintro notify ⟨⟩
      exact ⟨⟨hdst, htsn, unscannedChannels, by rw [hchannels]⟩, hstatus⟩

theorem Tidy.channelCheckScanResult (hthread : run.threads[i]? = some thread)
    (hjob : thread.job = some .channelCheck) {busy : Bool} {status : UInt8}
    {unscannedChannels : UInt32} (howner : busy = true → run.owner = some i) :
    (run.zbZdoChannelCheckScanResult layout i thread busy status
      unscannedChannels).Tidy layout := by
  have hfits := htidy.fits i thread hthread _ hjob
  cases hprocedure : thread.procedure <;> simp only [hprocedure] at hfits
  case check =>
    rw [zbZdoChannelCheckScanResult]
    split
    case isTrue hbusy =>
      obtain ⟨hsame, hwaits⟩ := zbNlmeEdScanConfirm_procedure layout
        _ thread status unscannedChannels
      exact htidy.setCheck rfl rfl rfl (hsame.trans hprocedure) hwaits
        (.inl (howner hbusy))
    case isFalse => exact htidy.setCheck rfl rfl rfl hprocedure nofun (.inr ⟨rfl, rfl⟩)

theorem Tidy.discoveryConfirm
    (howner : run.owner = some i) (hthread : run.threads[i]? = some thread)
    (hjob : thread.job = some .discoveryScan) :
    (run.discoveryConfirm layout i thread).Tidy layout := by
  have hfits := htidy.fits i thread hthread _ hjob
  cases hprocedure : thread.procedure <;> simp only [hprocedure] at hfits
  case check =>
    refine htidy.setCheck rfl rfl rfl hprocedure ?_ (.inl howner)
    intro hnext
    dsimp only at hnext
    split_ifs at hnext
    cases hnext
  case discovery =>
    refine htidy.set rfl rfl htidy.counter ?hright ?hfits ?hcurrent (.inl howner)
    case hright => simp only [ZdoThread.Right, hprocedure]
    case hfits =>
      intro job hnext
      dsimp only at hnext
      split_ifs at hnext
      cases hnext
      simp only [hprocedure]
    case hcurrent =>
      intro _ job _
      simp only [hprocedure]

theorem Tidy.getPeerShortAddr
    (howner : run.owner = some i) (hthread : run.threads[i]? = some thread)
    (hjob : thread.job = some .getPeerShortAddr) :
    (run.setThread i { thread with
      job := some (.shortAddrResp
        (layout.shortAddr run.ctx).dstAddrRef) }).Tidy layout := by
  have hright := htidy.right i thread hthread
  have hcurrent := htidy.current i thread howner hthread _ hjob
  have hfits := htidy.fits i thread hthread _ hjob
  cases hprocedure : thread.procedure <;> simp only [hprocedure] at hcurrent hfits
  case check => exact htidy.setCheck rfl rfl rfl rfl nofun (.inl howner)
  case lookUp ctx =>
    rw [ZdoThread.Right, hprocedure] at hright
    refine htidy.set rfl rfl htidy.counter ?hright ?hfits ?hcurrent (.inl howner)
    case hright =>
      simp only [ZdoThread.Right]
      rw [hright, hjob]
      rfl
    case hfits =>
      rintro job ⟨⟩
      trivial
    case hcurrent =>
      rintro - job ⟨⟩
      exact hcurrent

theorem Tidy.peerShortAddr
    (howner : run.owner = some i) (hthread : run.threads[i]? = some thread)
    {dstAddrRef : UInt8} (hjob : thread.job = some (.shortAddrResp dstAddrRef)) :
    (run.setThread i (run.getPeerShortAddrCb layout thread)).Tidy layout := by
  have hright := htidy.right i thread hthread
  have hcurrent := htidy.current i thread howner hthread _ hjob
  have hfits := htidy.fits i thread hthread _ hjob
  cases hprocedure : thread.procedure <;> simp only [hprocedure] at hcurrent hfits
  case check => exact htidy.setCheck rfl rfl rfl hprocedure nofun (.inl howner)
  case lookUp ctx =>
    rw [ZdoThread.Right, hprocedure] at hright
    refine htidy.set rfl rfl htidy.counter ?hright nofun ?hcurrent (.inl howner)
    case hright =>
      simp only [getPeerShortAddrCb, ZdoThread.Right, hprocedure, hcurrent, hright, hjob]
      rfl
    case hcurrent => exact fun _ => nofun

end

end Steps

section Requests

section

variable (htidy : run.Tidy layout)

include htidy

theorem Tidy.appendAnswer (hthreads : next.threads = run.threads ++ [thread])
    (howner : next.owner = run.owner) (hcounter : next.wrapped = run.wrapped)
    (hctx : next.ctx = run.ctx) (hflag : next.zdoEdScan = run.zdoEdScan)
    (hanswer : thread.procedure = .answer) (hjob : thread.job = none) :
    next.Tidy layout := by
  have hget := getElem?_of_append_singleton hthreads
  constructor
  case right =>
    intro j other hother
    rcases hget j other hother with hold | ⟨-, rfl⟩
    · exact htidy.right j other hold
    · rw [ZdoThread.Right, hanswer]
      trivial
  case fits =>
    intro j other hother
    rcases hget j other hother with hold | ⟨-, rfl⟩
    · exact htidy.fits j other hold
    · intro job hwaits
      rw [hjob] at hwaits
      cases hwaits
  case current =>
    intro j other hj hother
    rw [howner] at hj
    rcases hget j other hother with hold | ⟨hle, -⟩
    · have hcurrent := htidy.current j other hj hold
      rw [Current] at hcurrent ⊢
      rw [hctx, hflag]
      exact hcurrent
    · exact absurd (htidy.owner j hj) (Nat.not_lt.mpr hle)
  case owner =>
    intro j hj
    rw [hthreads, length_append]
    exact Nat.lt_add_right _ (htidy.owner j (howner ▸ hj))
  case counter => exact hcounter.trans htidy.counter

theorem Tidy.answered (req : NwkUpdateReq) (reqTsn : UInt8)
    {status : UInt8} (hflag : run.zdoEdScan = false)
    (hzero : status = ZdpStatus.success → (layout.nwkUpdReq run.ctx).scanCount = 0) :
    (run.nwkUpdateAnswer layout req reqTsn status).Tidy layout := by
  have hmore : run.scansAgain layout ⟨status, 0, req.tsn, req.srcAddr⟩ =
      false := by
    rw [scansAgain, decide_eq_false_iff_not]
    rintro ⟨hsuccess, hnonzero⟩
    exact hnonzero (hzero hsuccess)
  rw [nwkUpdateAnswer]
  split
  case isTrue =>
    simp only [zbZdoNwkUpdNotify, hmore]
    exact htidy.appendAnswer rfl rfl rfl rfl hflag.symm rfl rfl
  case isFalse => exact htidy

theorem Tidy.accepted {req : NwkUpdateReq} (hcount : 0 < req.scanCount) :
    let begun := run.begin
      (layout.setNwkUpdReq run.ctx ⟨req.scanChannels, req.scanDuration,
        req.scanCount, req.srcAddr, req.tsn⟩)
      (.scan req) .startEdScan
    ({ begun with zdoEdScan := true }.zbStartEdScan layout
      run.threads.length ⟨.scan req, some .startEdScan, [], []⟩).Tidy
        layout := by
  dsimp only
  refine Tidy.startEdScan (htidy.append rfl rfl htidy.counter ?hright ?hfits
    ?hcurrent) rfl ?hthread rfl
  case hthread => exact List.getElem?_concat_length
  case hright =>
    rw [ZdoThread.Right]
    exact ⟨nofun, nofun, Nat.zero_le _, nofun⟩
  case hfits =>
    rintro job ⟨⟩
    trivial
  case hcurrent =>
    rintro job ⟨⟩
    simp only [begin, layout.nwkUpdReq_set]
    refine ⟨trivial, trivial, trivial, trivial, trivial, ?_, ?_, nofun⟩
    · simp [ZdoJob.scans]
    · exact fun _ => (UInt8.pos_iff_ne_zero.mp hcount)

theorem Tidy.mgmtNwkUpdate {req : NwkUpdateReq} {reqTsn : UInt8}
    (hundisturbed : run.Undisturbed layout (.mgmtNwkUpdate req reqTsn)) :
    (run.mgmtNwkUpdateHandler layout req reqTsn).Tidy layout := by
  -- An answer to a broadcast address is not sent.
  have hanswer : ∀ status, (req.srcAddr.toNat < ZdpServer.broadcastLowPowerRouter →
      req.answer = some status) →
      (run.nwkUpdateAnswer layout req reqTsn status).Tidy layout := by
    intro status hstatus
    by_cases hsent : req.srcAddr.toNat < ZdpServer.broadcastLowPowerRouter
    case pos =>
      obtain ⟨hflag, hzero⟩ := hundisturbed status (hstatus hsent)
      exact htidy.answered req reqTsn hflag hzero
    case neg =>
      rw [nwkUpdateAnswer, if_neg hsent]
      exact htidy
  rw [mgmtNwkUpdateHandler]
  split_ifs with hchannel hmask hduration htoo hcount hunicast
  · exact htidy
  · exact htidy.congr rfl rfl rfl rfl rfl
  · refine hanswer _ fun hsent => ?_
    simp [NwkUpdateReq.answer, hchannel, hmask, hsent, hduration, htoo]
  · exact htidy.accepted hcount
  · refine hanswer _ fun hsent => ?_
    simp [NwkUpdateReq.answer, hchannel, hmask, hsent, hduration, htoo, hcount]
  · refine hanswer _ fun hsent => ?_
    simp [NwkUpdateReq.answer, hchannel, hmask, hsent, hduration, hunicast]
  · exact htidy

end

end Requests

section Runs

theorem stepThread_eq_some {f : ZdoThread → ZdoJob → Option (ZdoCtxRun M)}
    (hstep : run.stepThread i f = some next) :
    ∃ thread job, run.threads[i]? = some thread ∧ thread.job = some job ∧
      f thread job = some next := by
  obtain ⟨thread, hthread, hrest⟩ := bind_eq_some_iff.mp hstep
  obtain ⟨job, hjob, hnext⟩ := bind_eq_some_iff.mp hrest
  exact ⟨thread, job, hthread, hjob, hnext⟩

theorem Tidy.step (htidy : run.Tidy layout) {event : ZdoCtxEvent}
    (hundisturbed : run.Undisturbed layout event)
    (hstep : run.step layout event = some next) : next.Tidy layout := by
  cases event with
  | mgmtNwkUpdate req reqTsn =>
    obtain rfl := some.inj hstep
    exact htidy.mgmtNwkUpdate hundisturbed
  | startEdScan i =>
    obtain ⟨thread, job, hthread, hjob, hnext⟩ := stepThread_eq_some hstep
    cases job <;> cases hnext
    exact htidy.startEdScan hundisturbed hthread hjob
  | edScanConfirm i status unscannedChannels =>
    obtain ⟨thread, job, hthread, hjob, hnext⟩ := stepThread_eq_some hstep
    cases job <;> cases hnext
    rcases hundisturbed with ⟨howner, hstatus⟩ | ⟨⟨other, hother, hcheck⟩, -⟩
    · exact htidy.edScanConfirm howner hthread hjob hstatus
    · obtain rfl := some.inj (hthread.symm.trans hother)
      obtain ⟨hsame, hwaits⟩ := zbNlmeEdScanConfirm_procedure layout
        run thread status unscannedChannels
      exact htidy.setCheck rfl rfl rfl (hsame.trans hcheck) hwaits (.inr ⟨rfl, rfl⟩)
  | nwkUpdNotify i reqTsn =>
    obtain ⟨thread, job, hthread, hjob, hnext⟩ := stepThread_eq_some hstep
    cases job <;> cases hnext
    exact htidy.nwkUpdNotify hundisturbed.1 hthread hjob hundisturbed.2 reqTsn
  | checkFails failing =>
    obtain rfl := some.inj hstep
    rw [zbZdoCheckFails]
    split
    case isTrue =>
      refine htidy.append rfl rfl htidy.counter trivial (fun _ _ => trivial) ?_
      rintro job ⟨⟩
      simp [begin, layout.nwkUpdReq_set]
    case isFalse => exact htidy
  | channelCheckTimer =>
    obtain rfl := some.inj hstep
    exact htidy.congr rfl rfl rfl rfl rfl
  | channelCheckScanResult i busy status unscannedChannels =>
    obtain ⟨thread, job, hthread, hjob, hnext⟩ := stepThread_eq_some hstep
    cases job <;> cases hnext
    exact htidy.channelCheckScanResult hthread hjob hundisturbed
  | networkDiscovery nwkScanAttempts =>
    obtain rfl := some.inj hstep
    refine htidy.append rfl rfl htidy.counter trivial ?_ (fun _ _ => trivial)
    rintro job ⟨⟩
    trivial
  | discoveryConfirm i =>
    obtain ⟨thread, job, hthread, hjob, hnext⟩ := stepThread_eq_some hstep
    cases job <;> cases hnext
    exact htidy.discoveryConfirm hundisturbed hthread hjob
  | startGetPeerShortAddr ctx =>
    obtain rfl := some.inj hstep
    refine htidy.append rfl rfl htidy.counter rfl ?_ ?_
    · rintro job ⟨⟩
      trivial
    · exact fun _ _ => layout.shortAddr_set run.ctx ctx
  | getPeerShortAddr i =>
    obtain ⟨thread, job, hthread, hjob, hnext⟩ := stepThread_eq_some hstep
    cases job <;> cases hnext
    exact htidy.getPeerShortAddr hundisturbed hthread hjob
  | peerShortAddr i =>
    obtain ⟨thread, job, hthread, hjob, hnext⟩ := stepThread_eq_some hstep
    cases job <;> cases hnext
    exact htidy.peerShortAddr hundisturbed hthread hjob

theorem tidy_start (mem : M) : (start mem).Tidy layout where
  right := nofun
  fits := nofun
  current := nofun
  owner := nofun
  counter := rfl

/-- Whatever the layout of the union, the procedures are right in every state of
a run whose steps are undisturbed. -/
theorem separate_of_undisturbed (layout : ZdoCtxLayout M) (mem : M)
    (events : List ZdoCtxEvent)
    (hundisturbed : AlongRun (step layout) (Undisturbed layout) (start mem) events) :
    EveryState (step layout) Separate (start mem) events :=
  everyState_of_invariant
    (fun _ _ _ htidy hundisturbed hstep => htidy.step hundisturbed hstep)
    (fun _ htidy => htidy.separate) (tidy_start mem) hundisturbed

/-- The union as it lies in the memory of a big-endian machine with pointers of
two bytes: the first four bytes are those of `scan_channels`, of which
`disc_count` and `dst_addr_ref` are the first one. -/
def packedLayout : ZdoCtxLayout NwkUpdReqCtx where
  nwkUpdReq mem := mem
  setNwkUpdReq _ ctx := ctx
  discCount mem := UInt8.ofNat (mem.scanChannels.toNat / 2 ^ 24)
  setDiscCount mem count :=
    { mem with
      scanChannels := UInt32.ofNat
        (2 ^ 24 * count.toNat + mem.scanChannels.toNat % 2 ^ 24) }
  shortAddr mem :=
    { dstAddrRef := UInt8.ofNat (mem.scanChannels.toNat / 2 ^ 24)
      cb := UInt16.ofNat (mem.scanChannels.toNat / 2 ^ 8)
      param := UInt8.ofNat mem.scanChannels.toNat }
  setShortAddr mem ctx :=
    { mem with
      scanChannels := UInt32.ofNat (2 ^ 24 * ctx.dstAddrRef.toNat +
        2 ^ 8 * ctx.cb.toNat + ctx.param.toNat) }
  nwkUpdReq_set _ _ := rfl
  discCount_set mem count := by
    have hcount := count.toNat_lt
    have hrest := Nat.mod_lt mem.scanChannels.toNat (Nat.two_pow_pos 24)
    refine UInt8.toNat.inj ?_
    rw [UInt8.toNat_ofNat', UInt32.toNat_ofNat']
    omega
  shortAddr_set mem ctx := by
    obtain ⟨ref, cb, param⟩ := ctx
    have href := ref.toNat_lt
    have hcb := cb.toNat_lt
    have hparam := param.toNat_lt
    congr 1
    · refine UInt8.toNat.inj ?_
      rw [UInt8.toNat_ofNat', UInt32.toNat_ofNat']
      dsimp only
      omega
    · refine UInt16.toNat.inj ?_
      rw [UInt16.toNat_ofNat', UInt32.toNat_ofNat']
      dsimp only
      omega
    · refine UInt8.toNat.inj ?_
      rw [UInt8.toNat_ofNat', UInt32.toNat_ofNat']
      dsimp only
      omega

def scansFrom (srcAddr : UInt16) (tsn scanCount : UInt8) : NwkUpdateReq :=
  ⟨srcAddr, true, tsn, 0x1800, 3, scanCount, 0⟩

def clearMembers : NwkUpdReqCtx := ⟨0, 0, 0, 0, 0⟩

/-- One request is scanned and notified for twice before a look-up begins. -/
theorem separate_of_undisturbed_inTurn :
    EveryState (step packedLayout) Separate (start clearMembers)
      [.mgmtNwkUpdate (scansFrom 5 1 2) 0, .edScanConfirm 0 0 0,
        .nwkUpdNotify 0 9, .startEdScan 0, .edScanConfirm 0 0 0,
        .nwkUpdNotify 0 9, .startGetPeerShortAddr ⟨3, 8, 4⟩,
        .getPeerShortAddr 1, .peerShortAddr 1] := by
  have hplain {run : ZdoCtxRun NwkUpdReqCtx} (hset : run.sendWithAck = false) :
      run.sendWithAck = true → run.IsCheck 0 := fun htrue => by
    rw [hset] at htrue
    cases htrue
  refine separate_of_undisturbed packedLayout clearMembers _ ⟨?_, ?_⟩
  · have hscanned : (scansFrom 5 1 2).answer = none := by decide
    intro status hstatus
    rw [hscanned] at hstatus
    cases hstatus
  · rintro _ ⟨⟩
    refine ⟨.inl ⟨rfl, .inl rfl⟩, ?_⟩
    rintro _ ⟨⟩
    refine ⟨⟨rfl, hplain rfl⟩, ?_⟩
    rintro _ ⟨⟩
    refine ⟨rfl, ?_⟩
    rintro _ ⟨⟩
    refine ⟨.inl ⟨rfl, .inl rfl⟩, ?_⟩
    rintro _ ⟨⟩
    refine ⟨⟨rfl, hplain rfl⟩, ?_⟩
    rintro _ ⟨⟩
    refine ⟨trivial, ?_⟩
    rintro _ ⟨⟩
    refine ⟨rfl, ?_⟩
    rintro _ ⟨⟩
    refine ⟨rfl, ?_⟩
    rintro _ -
    trivial

/-- A second request comes while the first one is scanned for.  The first
sender has no notification, and the second one has that of the other scan. -/
theorem not_separate_twoRequests :
    ¬EveryState (step packedLayout) Separate (start clearMembers)
      [.mgmtNwkUpdate (scansFrom 5 1 1) 0,
        .mgmtNwkUpdate (scansFrom 6 2 1) 0, .edScanConfirm 0 0 0,
        .nwkUpdNotify 0 9] := by
  intro hevery
  have hlast := (((hevery.2 _ rfl).2 _ rfl).2 _ rfl).2 _ rfl
  have hright := hlast.right _ (mem_cons_self)
  have howns := hright.1 _ (mem_singleton_self _)
  exact absurd howns.1 (by decide)

end Runs

end ZdoCtxRun

end Zboss
