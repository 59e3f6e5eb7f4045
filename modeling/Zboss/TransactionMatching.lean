import Zboss.TransitionSystem
import Zboss.ZdpTransactions

/-!
# Transaction matching

A callback waits in a slot of the table until its responses have arrived.
`zdo_af_resp` knows the tsn of a packet only, so that the table serves a run
as long as the slots in use have different tsns and no packet has the tsn of a
slot of another request.
-/

namespace Zboss

open Option List CyclicProbe TransitionSystem

namespace ZdoTransactions

variable {ctx next : ZdoTransactions} {tsn : UInt8} {i j : ℕ}

def Live (ctx : ZdoTransactions) (i : ℕ) : Prop :=
  i < zdoTranTableSize ∧ (ctx.zdoCb i).func ≠ none

def found (ctx : ZdoTransactions) (tsn : UInt8) : Option ℕ :=
  ctx.search tsn fun ent => ent.tsn == tsn && ent.func.isSome

def Distinct (ctx : ZdoTransactions) : Prop :=
  ∀ i j, ctx.Live i → ctx.Live j → (ctx.zdoCb i).tsn = (ctx.zdoCb j).tsn → i = j

theorem tsnHash_lt (tsn : UInt8) : tsnHash tsn < zdoTranTableSize :=
  Nat.mod_lt _ (by decide)

theorem accepts_iff (ent : ZdoCbEnt) : (ent.tsn == tsn && ent.func.isSome) = true ↔
      ent.tsn = tsn ∧ ent.func ≠ none := by
  rw [Bool.and_eq_true, beq_iff_eq, isSome_iff_ne_none]

theorem found_eq_some (hfound : ctx.found tsn = some i) :
    ctx.Live i ∧ (ctx.zdoCb i).tsn = tsn := by
  obtain ⟨htsn, hfunc⟩ := (accepts_iff _).mp (probe_eq_some hfound)
  exact ⟨⟨probe_lt_size (tsnHash_lt tsn) hfound, hfunc⟩, htsn⟩

theorem found_eq_none (hfound : ctx.found tsn = none) (hlive : ctx.Live i) :
    (ctx.zdoCb i).tsn ≠ tsn := by
  intro htsn
  rw [found, search] at hfound
  have haccept := probe_eq_none (tsnHash_lt tsn) hfound hlive.1
  rw [(accepts_iff _).mpr ⟨htsn, hlive.2⟩] at haccept
  contradiction

theorem Distinct.found (hdistinct : ctx.Distinct) (hlive : ctx.Live i)
    (htsn : (ctx.zdoCb i).tsn = tsn) : ctx.found tsn = some i := by
  refine probe_eq_of_unique (tsnHash_lt tsn) hlive.1
    ((accepts_iff _).mpr ⟨htsn, hlive.2⟩) ?_
  intro other hother haccept
  obtain ⟨hsame, hfunc⟩ := (accepts_iff _).mp haccept
  exact hdistinct other i ⟨hother, hfunc⟩ hlive (hsame.trans htsn.symm)

theorem distinct_iff : ctx.Distinct ↔ ∀ i, ctx.Live i →
      ctx.found (ctx.zdoCb i).tsn = some i := by
  constructor
  · intro hdistinct i hlive
    exact hdistinct.found hlive rfl
  · intro hfound i j hi hj htsn
    have hsame := hfound i hi
    rw [htsn, hfound j hj] at hsame
    exact (some.inj hsame).symm

/-- A free slot for a callback which expects responses, and no slot in use with
the next tsn; a callback which expects none is not to be registered. -/
def CanRegister (ctx : ZdoTransactions) (respCounter : UInt8) : Prop :=
  if ∀ i < zdoTranTableSize, (ctx.zdoCb i).func ≠ none then respCounter = 0
  else respCounter ≠ 0 ∧ ∀ i, ctx.Live i → (ctx.zdoCb i).tsn ≠ ctx.tsn + 1

theorem live_setEnt_of_ne {ent : ZdoCbEnt} (hne : j ≠ i) :
    (ctx.setEnt i ent).Live j ↔ ctx.Live j := by
  rw [Live, Live, setEnt]
  dsimp only
  rw [Function.update_of_ne hne]

theorem zdoCb_setEnt_self (ent : ZdoCbEnt) : (ctx.setEnt i ent).zdoCb i = ent :=
  Function.update_self ..

theorem zdoCb_setEnt_of_ne (ent : ZdoCbEnt) (hne : j ≠ i) :
    (ctx.setEnt i ent).zdoCb j = ctx.zdoCb j :=
  Function.update_of_ne hne ..

theorem registerZdoCb_some
    (ctx : ZdoTransactions) (tsn : UInt8) (cb : ℕ) (respCounter : UInt8)
    (request : ℕ) :
    ((∀ i < zdoTranTableSize, (ctx.zdoCb i).func ≠ none) ∧
        ctx.registerZdoCb tsn (some cb) respCounter request = ctx) ∨
      ∃ i, (i < zdoTranTableSize ∧ (ctx.zdoCb i).func = none) ∧
        ctx.registerZdoCb tsn (some cb) respCounter request =
          ctx.setEnt i ⟨some cb, tsn, respCounter, request⟩ := by
  rw [registerZdoCb]
  cases hfree : ctx.search tsn fun ent => ent.func.isNone with
  | none =>
    refine .inl ⟨fun i hi hnone => ?_, rfl⟩
    have haccept := probe_eq_none (tsnHash_lt tsn) hfree hi
    dsimp only at haccept
    rw [hnone] at haccept
    contradiction
  | some i =>
    exact .inr ⟨i, ⟨probe_lt_size (tsnHash_lt tsn) hfree,
      Option.isNone_iff_eq_none.mp (probe_eq_some hfree)⟩, rfl⟩

theorem live_setEnt_of_live {func : Option ℕ} {respCounter : UInt8} (hi : ctx.Live i)
    (hlive : (ctx.setEnt i { ctx.zdoCb i with func, respCounter }).Live j) :
    ctx.Live j ∧ ((ctx.setEnt i { ctx.zdoCb i with func, respCounter }).zdoCb j).tsn =
        (ctx.zdoCb j).tsn := by
  by_cases hji : j = i
  · rw [hji, zdoCb_setEnt_self]
    exact ⟨hi, rfl⟩
  · rw [zdoCb_setEnt_of_ne _ hji]
    exact ⟨(live_setEnt_of_ne hji).mp hlive, rfl⟩

theorem Distinct.setEnt {func : Option ℕ} {respCounter : UInt8} (hdistinct : ctx.Distinct)
    (hi : ctx.Live i) :
    (ctx.setEnt i { ctx.zdoCb i with func, respCounter }).Distinct := by
  intro j k hj hk hsame
  obtain ⟨hj, hjTsn⟩ := live_setEnt_of_live hi hj
  obtain ⟨hk, hkTsn⟩ := live_setEnt_of_live hi hk
  rw [hjTsn, hkTsn] at hsame
  exact hdistinct j k hj hk hsame

theorem zdoAfResp_of_none (hfound : ctx.found tsn = none) :
    ctx.zdoAfResp tsn = (ctx, none) := by
  rw [found] at hfound
  rw [zdoAfResp, hfound]

theorem zdoAfResp_of_some (hfound : ctx.found tsn = some i) : ctx.zdoAfResp tsn =
      (ctx.setEnt i { ctx.zdoCb i with
        func :=
          if (ctx.zdoCb i).respCounter - 1 = 0 then none
          else (ctx.zdoCb i).func
        respCounter := (ctx.zdoCb i).respCounter - 1 },
        some (ctx.zdoCb i)) := by
  rw [found] at hfound
  rw [zdoAfResp, hfound]

end ZdoTransactions

namespace ZdpRun

variable {run next : ZdpRun} {event : ZdpEvent}

def times (run : ZdpRun) (request : ℕ) : ℕ :=
  run.scheduled.countP fun entry => entry.1.request = request

/-- Every callback was scheduled for its own request, as often as something
arrived for it, but not more often than `respCounter` times. -/
structure Settled (run : ZdpRun) : Prop where
  own : ∀ entry ∈ run.scheduled, entry.2 = some entry.1.request ∧
    ∃ req, run.requests[entry.1.request]? = some req ∧
      req.cb = entry.1.func ∧ req.cb ≠ none
  counted : ∀ request req, run.requests[request]? = some req → req.cb ≠ none →
      run.times request = min req.respCounter.toNat req.arrived
  nulls : run.nulls = 0

def Awaits (run : ZdpRun) (ent : ZdoCbEnt) : Prop :=
  ∃ req, run.requests[ent.request]? = some req ∧ req.cb = ent.func ∧
    req.tsn = ent.tsn ∧ 0 < ent.respCounter.toNat ∧
      ent.respCounter.toNat + req.arrived = req.respCounter.toNat

structure Waiting (run : ZdpRun) : Prop where
  kept : ∀ request req, run.requests[request]? = some req →
    req.cb ≠ none → req.arrived < req.respCounter.toNat →
      ∃ i, run.ctx.found req.tsn = some i ∧ (run.ctx.zdoCb i).request = request
  awaits : ∀ i, run.ctx.Live i → run.ctx.found (run.ctx.zdoCb i).tsn = some i ∧
      run.Awaits (run.ctx.zdoCb i)

structure Matched (run : ZdpRun) : Prop extends run.Settled, run.Waiting

theorem waiting_iff : run.Waiting ↔ run.ctx.Distinct ∧
      (∀ i, run.ctx.Live i → run.Awaits (run.ctx.zdoCb i)) ∧
      ∀ request req, run.requests[request]? = some req →
        req.cb ≠ none → req.arrived < req.respCounter.toNat →
          ∃ i, run.ctx.Live i ∧ (run.ctx.zdoCb i).request = request := by
  constructor
  · intro hwaiting
    refine ⟨ZdoTransactions.distinct_iff.mpr fun i hlive =>
      (hwaiting.awaits i hlive).1,
      fun i hlive => (hwaiting.awaits i hlive).2, ?_⟩
    intro request req hreq hcb harrived
    obtain ⟨i, hfound, hrequest⟩ := hwaiting.kept request req hreq hcb harrived
    exact ⟨i, (ZdoTransactions.found_eq_some hfound).1, hrequest⟩
  · rintro ⟨hdistinct, hawaits, hkept⟩
    refine ⟨?_, fun i hlive => ⟨hdistinct.found hlive rfl, hawaits i hlive⟩⟩
    intro request req hreq hcb harrived
    obtain ⟨i, hlive, hrequest⟩ := hkept request req hreq hcb harrived
    obtain ⟨other, hother, -, htsn, -⟩ := hawaits i hlive
    rw [hrequest, hreq, some.injEq] at hother
    exact ⟨i, hdistinct.found hlive (by rw [hother, htsn]), hrequest⟩

theorem Matched.of_zdoCb {ctx : ZdoTransactions} (hmatched : run.Matched)
    (hzdoCb : ctx.zdoCb = run.ctx.zdoCb) : { run with ctx }.Matched := by
  obtain ⟨⟨_, _, _, _⟩, requests, scheduled, nulls⟩ := run
  obtain ⟨_, _, _, _⟩ := ctx
  obtain rfl := hzdoCb
  exact ⟨⟨hmatched.own, hmatched.counted, hmatched.nulls⟩, hmatched.kept, hmatched.awaits⟩

variable {cb : Option ℕ} {cmdNoResp : Bool} {respCounter : UInt8}

theorem matched_schedule_iff (hmatched : run.Matched) {room : Bool} :
    (run.schedule cb room).Matched ↔ (room = true → cb ≠ none) := by
  rw [schedule]
  split
  case isTrue hnull =>
    refine iff_of_false (fun hnext => ?_) (fun hcb => hcb hnull.1 hnull.2)
    have hnulls := hnext.nulls
    simp at hnulls
  case isFalse hnull => exact iff_of_true hmatched fun hroom hcb => hnull ⟨hroom, hcb⟩

theorem getElem?_requests_sendReq {request : ℕ} {req : ZdpRequest} :
    (run.sendReq cb respCounter cmdNoResp).requests[request]? = some req ↔
      run.requests[request]? = some req ∨ request = run.requests.length ∧
          req = ⟨run.ctx.tsn + 1, cb, respCounter, cmdNoResp, 0⟩ := by
  rw [sendReq]
  dsimp only
  obtain hlt | rfl | hgt := lt_trichotomy request run.requests.length
  · rw [List.getElem?_append_left hlt]
    simp [hlt.ne]
  · simp [eq_comm]
  · rw [List.getElem?_eq_none (by simp; omega), List.getElem?_eq_none (by omega)]
    simp [hgt.ne']

theorem Awaits.sendReq {ent : ZdoCbEnt} (hawaits : run.Awaits ent)
    (cb : Option ℕ) (respCounter : UInt8) (cmdNoResp : Bool) :
    (run.sendReq cb respCounter cmdNoResp).Awaits ent := by
  obtain ⟨req, hreq, hrest⟩ := hawaits
  exact ⟨req, getElem?_requests_sendReq.mpr (.inl hreq), hrest⟩

theorem settled_sendReq (hsettled : run.Settled) (cb : Option ℕ) (respCounter : UInt8)
    (cmdNoResp : Bool) :
    (run.sendReq cb respCounter cmdNoResp).Settled := by
  constructor
  case own =>
    intro entry hmem
    obtain ⟨horigin, req, hreq, hcb⟩ := hsettled.own entry hmem
    exact ⟨horigin, req, getElem?_requests_sendReq.mpr (.inl hreq), hcb⟩
  case counted =>
    intro request req hreq hcb
    obtain hold | ⟨rfl, rfl⟩ := getElem?_requests_sendReq.mp hreq
    · exact hsettled.counted request req hold hcb
    · -- nothing was scheduled for a request which did not exist
      have hnone : run.times run.requests.length = 0 := by
        refine countP_eq_zero.mpr fun entry hmem => ?_
        obtain ⟨-, other, hother, -⟩ := hsettled.own entry hmem
        obtain ⟨hlt, -⟩ := List.getElem?_eq_some_iff.mp hother
        simpa using hlt.ne
      exact hnone.trans (Nat.min_zero _).symm
  case nulls => exact hsettled.nulls

section

variable (hwaiting : run.Waiting)

include hwaiting

theorem Waiting.request_lt {i : ℕ} (hlive : run.ctx.Live i) :
    (run.ctx.zdoCb i).request < run.requests.length := by
  obtain ⟨-, req, hreq, -⟩ := hwaiting.awaits i hlive
  exact (List.getElem?_eq_some_iff.mp hreq).1

theorem waiting_sendReq_none (respCounter : UInt8) (cmdNoResp : Bool) :
    (run.sendReq none respCounter cmdNoResp).Waiting := by
  constructor
  case kept =>
    intro request req hreq hcb harrived
    obtain hold | ⟨-, rfl⟩ := getElem?_requests_sendReq.mp hreq
    · exact hwaiting.kept request req hold hcb harrived
    · contradiction
  case awaits =>
    intro i hlive
    obtain ⟨hfound, hawaits⟩ := hwaiting.awaits i hlive
    exact ⟨hfound, hawaits.sendReq none respCounter cmdNoResp⟩

theorem waiting_sendReq_iff_of_full {cb : ℕ}
    (hctx : (run.sendReq (some cb) respCounter cmdNoResp).ctx =
      { run.ctx with tsn := run.ctx.tsn + 1 }) :
    (run.sendReq (some cb) respCounter cmdNoResp).Waiting ↔ respCounter = 0 := by
  constructor
  · intro hnext
    by_contra hne
    obtain ⟨i, hfound, hrequest⟩ := hnext.kept run.requests.length _
      (getElem?_requests_sendReq.mpr (.inr ⟨rfl, rfl⟩))
      (some_ne_none cb)
      (Nat.pos_of_ne_zero fun hzero => hne (UInt8.toNat_inj.mp hzero))
    rw [hctx] at hfound hrequest
    have hlive : run.ctx.Live i := (ZdoTransactions.found_eq_some hfound).1
    exact absurd hrequest (hwaiting.request_lt hlive).ne
  · rintro rfl
    constructor
    case kept =>
      intro request req hreq hcb harrived
      rw [hctx]
      obtain hold | ⟨-, rfl⟩ := getElem?_requests_sendReq.mp hreq
      · exact hwaiting.kept request req hold hcb harrived
      · contradiction
    case awaits =>
      intro i hlive
      rw [hctx] at hlive ⊢
      obtain ⟨hfound, hawaits⟩ := hwaiting.awaits i hlive
      exact ⟨hfound, hawaits.sendReq (some cb) 0 cmdNoResp⟩

theorem waiting_sendReq_iff_of_free {cb i : ℕ} (hi : i < zdoTranTableSize)
    (hfree : (run.ctx.zdoCb i).func = none)
    (hctx : (run.sendReq (some cb) respCounter cmdNoResp).ctx =
      { run.ctx with tsn := run.ctx.tsn + 1 }.setEnt i
        ⟨some cb, run.ctx.tsn + 1, respCounter, run.requests.length⟩) :
    (run.sendReq (some cb) respCounter cmdNoResp).Waiting ↔ respCounter ≠ 0 ∧
        ∀ j, run.ctx.Live j → (run.ctx.zdoCb j).tsn ≠ run.ctx.tsn + 1 := by
  have hother : ∀ j, run.ctx.Live j → j ≠ i := fun j hlive hsame => hlive.2 (hsame ▸ hfree)
  have hlive : ∀ j, j ≠ i → ((run.sendReq (some cb) respCounter cmdNoResp).ctx.Live j ↔
        run.ctx.Live j) := fun j hne => by
    rw [hctx]
    exact ZdoTransactions.live_setEnt_of_ne hne
  have hself : (run.sendReq (some cb) respCounter cmdNoResp).ctx.zdoCb i =
      ⟨some cb, run.ctx.tsn + 1, respCounter, run.requests.length⟩ := by
    rw [hctx]
    exact ZdoTransactions.zdoCb_setEnt_self _
  have hkeep : ∀ j, j ≠ i → (run.sendReq (some cb) respCounter cmdNoResp).ctx.zdoCb j =
        run.ctx.zdoCb j := fun j hne => by
    rw [hctx]
    exact ZdoTransactions.zdoCb_setEnt_of_ne _ hne
  have hnew : (run.sendReq (some cb) respCounter cmdNoResp).ctx.Live i :=
    ⟨hi, by rw [hself]; exact some_ne_none cb⟩
  obtain ⟨hdistinct, hawaits, hkept⟩ := waiting_iff.mp hwaiting
  rw [waiting_iff]
  constructor
  · rintro ⟨hnextDistinct, hnextAwaits, -⟩
    refine ⟨?_, fun j hj htsn => hother j hj ?_⟩
    · rintro rfl
      obtain ⟨-, -, -, -, hpos, -⟩ := hnextAwaits i hnew
      rw [hself] at hpos
      contradiction
    · refine hnextDistinct j i ((hlive j (hother j hj)).mpr hj) hnew ?_
      rw [hself, hkeep j (hother j hj), htsn]
  · rintro ⟨hpos, htsn⟩
    refine ⟨?_, ?_, ?_⟩
    · intro j k hj hk hsame
      by_cases hji : j = i
      · by_cases hki : k = i
        · exact hji.trans hki.symm
        · rw [hlive k hki] at hk
          rw [hji, hself, hkeep k hki] at hsame
          exact absurd hsame.symm (htsn k hk)
      · rw [hlive j hji] at hj
        by_cases hki : k = i
        · rw [hki, hself, hkeep j hji] at hsame
          exact absurd hsame (htsn j hj)
        · rw [hlive k hki] at hk
          rw [hkeep j hji, hkeep k hki] at hsame
          exact hdistinct j k hj hk hsame
    · intro j hj
      by_cases hji : j = i
      · rw [hji, hself]
        exact ⟨_, getElem?_requests_sendReq.mpr (.inr ⟨rfl, rfl⟩), rfl, rfl,
          Nat.pos_of_ne_zero fun hzero => hpos (UInt8.toNat_inj.mp hzero), rfl⟩
      · rw [hkeep j hji]
        exact (hawaits j ((hlive j hji).mp hj)).sendReq ..
    · intro request req hreq hcb harrived
      obtain hold | ⟨rfl, rfl⟩ := getElem?_requests_sendReq.mp hreq
      · obtain ⟨j, hj, hrequest⟩ := hkept request req hold hcb harrived
        exact ⟨j, (hlive j (hother j hj)).mpr hj, by
          rw [hkeep j (hother j hj), hrequest]⟩
      · exact ⟨i, hnew, by rw [hself]⟩

end

theorem matched_sendReq_iff (hmatched : run.Matched) :
    (run.sendReq cb respCounter cmdNoResp).Matched ↔
      (cb ≠ none → run.ctx.CanRegister respCounter) := by
  have hsettled := settled_sendReq hmatched.toSettled cb respCounter cmdNoResp
  have hiff : (run.sendReq cb respCounter cmdNoResp).Matched ↔
      (run.sendReq cb respCounter cmdNoResp).Waiting :=
    ⟨fun hnext => hnext.toWaiting, fun hwaiting => ⟨hsettled, hwaiting⟩⟩
  rw [hiff]
  cases cb with
  | none =>
    exact iff_of_true (waiting_sendReq_none hmatched.toWaiting ..)
      fun hcb => absurd rfl hcb
  | some cb =>
    rw [forall_prop_of_true (some_ne_none cb), ZdoTransactions.CanRegister]
    obtain ⟨hfull, hctx⟩ | ⟨i, ⟨hi, hfree⟩, hctx⟩ :=
      ZdoTransactions.registerZdoCb_some
        { run.ctx with tsn := run.ctx.tsn + 1 } (run.ctx.tsn + 1) cb
        respCounter run.requests.length
    · rw [if_pos hfull]
      exact waiting_sendReq_iff_of_full hmatched.toWaiting hctx
    · rw [if_neg fun hfull => hfull i hi hfree]
      exact waiting_sendReq_iff_of_free hmatched.toWaiting hi hfree hctx

/-! ## Arrivals -/

def Owns (run : ZdpRun) (tsn : UInt8) (origin : Option ℕ) (room : Bool) : Prop :=
  ∀ i, run.ctx.Live i → (run.ctx.zdoCb i).tsn = tsn →
    origin = some (run.ctx.zdoCb i).request ∧ room = true

section Arrivals

variable {tsn : UInt8} {origin : Option ℕ} {room : Bool} {i : ℕ}

variable {req : ZdpRequest} {request : ℕ}

theorem tsn_of_genuine
    (hgenuine : run.genuine tsn origin = true) (horigin : origin = some request)
    (hreq : run.requests[request]? = some req) : req.tsn = tsn := by
  rw [genuine, horigin, Option.all_some, hreq, Option.any_some] at hgenuine
  exact beq_iff_eq.mp hgenuine

theorem requests_afResp_iff : (run.afResp tsn origin room).requests[request]? = some req ↔
      ∃ old, run.requests[request]? = some old ∧ req = if origin = some request then
          { old with arrived := old.arrived + 1 } else old := by
  unfold afResp
  dsimp only
  cases origin with
  | none => simp [eq_comm]
  | some other =>
    dsimp only
    rw [List.getElem?_modify, Option.map_eq_map, map_eq_some_iff]
    simp only [some.injEq, eq_comm]

theorem requests_afResp_self (horigin : origin = some request)
    (hreq : run.requests[request]? = some req) :
    (run.afResp tsn origin room).requests[request]? =
      some { req with arrived := req.arrived + 1 } :=
  requests_afResp_iff.mpr ⟨req, hreq, (if_pos horigin).symm⟩

theorem requests_afResp_other (horigin : origin ≠ some request)
    (hreq : run.requests[request]? = some req) :
    (run.afResp tsn origin room).requests[request]? = some req :=
  requests_afResp_iff.mpr ⟨req, hreq, (if_neg horigin).symm⟩

theorem requests_afResp_cases
    (hreq : (run.afResp tsn origin room).requests[request]? = some req) :
    (origin = some request ∧ ∃ old, run.requests[request]? = some old ∧
        req = { old with arrived := old.arrived + 1 }) ∨
      (origin ≠ some request ∧ run.requests[request]? = some req) := by
  obtain ⟨old, hold, rfl⟩ := requests_afResp_iff.mp hreq
  split
  case isTrue horigin => exact .inl ⟨horigin, old, hold, rfl⟩
  case isFalse horigin => exact .inr ⟨horigin, hold⟩

theorem afResp_of_none (hfound : run.ctx.found tsn = none) :
    (run.afResp tsn origin room).ctx = run.ctx ∧
      (run.afResp tsn origin room).scheduled = run.scheduled := by
  unfold afResp
  rw [ZdoTransactions.zdoAfResp_of_none hfound]
  cases room with
  | false => exact ⟨rfl, append_nil _⟩
  | true => exact ⟨rfl, append_nil _⟩

theorem afResp_of_some (hfound : run.ctx.found tsn = some i) :
    (run.afResp tsn origin room).ctx =
        run.ctx.setEnt i { run.ctx.zdoCb i with
          func :=
            if (run.ctx.zdoCb i).respCounter - 1 = 0 then none
            else (run.ctx.zdoCb i).func
          respCounter := (run.ctx.zdoCb i).respCounter - 1 } ∧
      (run.afResp tsn origin room).scheduled = run.scheduled ++
        if room then [(run.ctx.zdoCb i, origin)] else [] := by
  unfold afResp
  rw [ZdoTransactions.zdoAfResp_of_some hfound]
  cases room with
  | false => exact ⟨rfl, rfl⟩
  | true => exact ⟨rfl, rfl⟩

theorem Awaits.afResp {ent : ZdoCbEnt} (hawaits : run.Awaits ent)
    (hother : origin ≠ some ent.request) :
    (run.afResp tsn origin room).Awaits ent := by
  obtain ⟨req, hreq, hrest⟩ := hawaits
  exact ⟨req, requests_afResp_other hother hreq, hrest⟩

theorem own_afResp (hsettled : run.Settled)
    {entry : ZdoCbEnt × Option ℕ} (hmem : entry ∈ run.scheduled) :
    entry.2 = some entry.1.request ∧
      ∃ req, (run.afResp tsn origin room).requests[entry.1.request]? =
        some req ∧ req.cb = entry.1.func ∧ req.cb ≠ none := by
  obtain ⟨horigin, req, hreq, hcb, hne⟩ := hsettled.own entry hmem
  refine ⟨horigin, _, requests_afResp_iff.mpr ⟨req, hreq, rfl⟩, ?_⟩
  split
  · exact ⟨hcb, hne⟩
  · exact ⟨hcb, hne⟩

theorem matched_afResp_of_none
    (hmatched : run.Matched) (hgenuine : run.genuine tsn origin = true)
    (hfound : run.ctx.found tsn = none) :
    (run.afResp tsn origin room).Matched := by
  obtain ⟨hctx, hscheduled⟩ := @afResp_of_none run tsn origin room hfound
  have hdone : ∀ request req, origin = some request →
      run.requests[request]? = some req → req.cb ≠ none →
        req.respCounter.toNat ≤ req.arrived := by
    intro request req horigin hreq hcb
    by_contra hlt
    obtain ⟨i, hi, -⟩ := hmatched.kept request req hreq hcb (Nat.lt_of_not_le hlt)
    rw [tsn_of_genuine hgenuine horigin hreq, hfound] at hi
    contradiction
  constructor
  case toSettled =>
    constructor
    case own =>
      intro entry hmem
      rw [hscheduled] at hmem
      exact own_afResp hmatched.toSettled hmem
    case counted =>
      intro request req hreq hcb
      rw [times, hscheduled]
      obtain ⟨horigin, old, hold, rfl⟩ | ⟨-, hold⟩ := requests_afResp_cases hreq
      · have hle := hdone request old horigin hold hcb
        have hcounted := hmatched.counted request old hold hcb
        rw [Nat.min_eq_left hle] at hcounted
        rw [Nat.min_eq_left (Nat.le_succ_of_le hle)]
        exact hcounted
      · exact hmatched.counted request req hold hcb
    case nulls => exact hmatched.nulls
  case toWaiting =>
    constructor
    case kept =>
      intro request req hreq hcb harrived
      rw [hctx]
      obtain ⟨horigin, old, hold, rfl⟩ | ⟨-, hold⟩ := requests_afResp_cases hreq
      · exact absurd (hdone request old horigin hold hcb)
          (Nat.not_le_of_lt (Nat.lt_of_succ_lt harrived))
      · exact hmatched.kept request req hold hcb harrived
    case awaits =>
      intro i hlive
      rw [hctx] at hlive ⊢
      obtain ⟨hsame, hawaits⟩ := hmatched.awaits i hlive
      refine ⟨hsame, hawaits.afResp fun horigin => ?_⟩
      obtain ⟨req, hreq, -, htsn, -⟩ := hawaits
      exact ZdoTransactions.found_eq_none hfound hlive
        (htsn.symm.trans (tsn_of_genuine hgenuine horigin hreq))

theorem toNat_sub_one {left : UInt8} (hpos : 0 < left.toNat) :
    (left - 1).toNat = left.toNat - 1 :=
  UInt8.toNat_sub_of_le _ _ (UInt8.le_iff_toNat_le.mpr hpos)

theorem times_afResp (hfound : run.ctx.found tsn = some i) (request : ℕ) :
    (run.afResp tsn origin room).times request = run.times request +
      if room = true ∧ (run.ctx.zdoCb i).request = request then 1 else 0 := by
  obtain ⟨-, hscheduled⟩ := @afResp_of_some run tsn origin room i hfound
  rw [times, hscheduled, countP_append]
  cases room with
  | false => rfl
  | true =>
    rw [if_pos rfl, countP_singleton]
    simp only [decide_eq_true_eq, true_and]
    rfl

theorem settled_afResp_of_own
    (hmatched : run.Matched) (hfound : run.ctx.found tsn = some i)
    (horigin : origin = some (run.ctx.zdoCb i).request) :
    (run.afResp tsn origin true).Settled := by
  obtain ⟨-, hscheduled⟩ := @afResp_of_some run tsn origin true i hfound
  rw [if_pos rfl] at hscheduled
  obtain ⟨hlive, -⟩ := ZdoTransactions.found_eq_some hfound
  obtain ⟨-, req, hreq, hcb, -, hpos, hleft⟩ := hmatched.awaits i hlive
  constructor
  case own =>
    intro entry hmem
    rw [hscheduled] at hmem
    obtain hmem | hmem := mem_append.mp hmem
    · exact own_afResp hmatched.toSettled hmem
    · obtain rfl := mem_singleton.mp hmem
      exact ⟨horigin, _, requests_afResp_self horigin hreq, hcb, hcb ▸ hlive.2⟩
  case counted =>
    intro request other hrequest hne
    rw [times_afResp hfound]
    obtain ⟨hsame, old, hold, rfl⟩ | ⟨hdiff, hold⟩ := requests_afResp_cases hrequest
    · obtain rfl := some.inj (horigin.symm.trans hsame)
      obtain rfl := some.inj (hreq.symm.trans hold)
      have hcounted := hmatched.counted _ req hreq hne
      rw [if_pos ⟨rfl, rfl⟩]
      dsimp only
      omega
    · rw [if_neg (by rintro ⟨-, rfl⟩; exact hdiff horigin)]
      exact hmatched.counted request other hold hne
  case nulls => exact hmatched.nulls

theorem waiting_afResp_of_own
    (hwaiting : run.Waiting) (hfound : run.ctx.found tsn = some i)
    (horigin : origin = some (run.ctx.zdoCb i).request) :
    (run.afResp tsn origin room).Waiting := by
  obtain ⟨hctx, -⟩ := @afResp_of_some run tsn origin room i hfound
  obtain ⟨hlive, htsn⟩ := ZdoTransactions.found_eq_some hfound
  obtain ⟨hdistinct, hawaits, hkept⟩ := waiting_iff.mp hwaiting
  obtain ⟨req, hreq, hcb, hreqTsn, hpos, hleft⟩ := hawaits i hlive
  have hstill : (run.ctx.zdoCb i).respCounter - 1 ≠ 0 ↔
      1 < (run.ctx.zdoCb i).respCounter.toNat := by
    rw [Ne, ← UInt8.toNat_inj, toNat_sub_one hpos, UInt8.toNat_zero]
    omega
  rw [waiting_iff, hctx]
  refine ⟨hdistinct.setEnt hlive, ?_, ?_⟩
  · intro j hj
    by_cases hji : j = i
    · subst hji
      rw [ZdoTransactions.zdoCb_setEnt_self]
      have hne := hj.2
      rw [ZdoTransactions.zdoCb_setEnt_self] at hne
      dsimp only at hne
      split at hne
      case isTrue => contradiction
      case isFalse hleft' =>
        refine ⟨_, requests_afResp_self horigin hreq, ?_⟩
        rw [if_neg hleft']
        dsimp only
        rw [toNat_sub_one hpos]
        have hlt := hstill.mp hleft'
        exact ⟨hcb, hreqTsn, by omega, by omega⟩
    · rw [ZdoTransactions.live_setEnt_of_ne hji] at hj
      rw [ZdoTransactions.zdoCb_setEnt_of_ne _ hji]
      refine (hawaits j hj).afResp fun hsame => hji ?_
      obtain ⟨other, hother, -, hotherTsn, -⟩ := hawaits j hj
      rw [horigin, some.injEq] at hsame
      rw [← hsame, hreq, some.injEq] at hother
      exact hdistinct j i hj hlive (by rw [← hotherTsn, ← hother, hreqTsn])
  · intro request other hrequest hne harrived
    obtain ⟨hsame, old, hold, rfl⟩ | ⟨hdiff, hold⟩ := requests_afResp_cases hrequest
    · obtain rfl := some.inj (horigin.symm.trans hsame)
      obtain rfl := some.inj (hreq.symm.trans hold)
      dsimp only at harrived
      have hlt := hstill.mpr (by omega)
      refine ⟨i, ⟨hlive.1, ?_⟩, ?_⟩
      · rw [ZdoTransactions.zdoCb_setEnt_self, if_neg hlt]
        exact hlive.2
      · rw [ZdoTransactions.zdoCb_setEnt_self]
    · obtain ⟨j, hj, hjRequest⟩ := hkept request other hold hne harrived
      have hji : j ≠ i := fun hji => hdiff (by rw [horigin, ← hji, hjRequest])
      refine ⟨j, (ZdoTransactions.live_setEnt_of_ne hji).mpr hj, ?_⟩
      rw [ZdoTransactions.zdoCb_setEnt_of_ne _ hji, hjRequest]

theorem not_matched_afResp (hmatched : run.Matched) (hfound : run.ctx.found tsn = some i)
    (hother : ¬(origin = some (run.ctx.zdoCb i).request ∧ room = true)) :
    ¬ (run.afResp tsn origin room).Matched := by
  intro hnext
  obtain ⟨hctx, hscheduled⟩ := @afResp_of_some run tsn origin room i hfound
  obtain ⟨hlive, htsn⟩ := ZdoTransactions.found_eq_some hfound
  obtain ⟨hdistinct, hawaits, -⟩ := waiting_iff.mp hmatched.toWaiting
  obtain ⟨req, hreq, hcb, hreqTsn, hpos, hleft⟩ := hawaits i hlive
  have hne : req.cb ≠ none := hcb ▸ hlive.2
  by_cases horigin : origin = some (run.ctx.zdoCb i).request
  · -- something arrived for the request, and nothing was scheduled
    have hcounted := hnext.counted _ _ (requests_afResp_self horigin hreq) hne
    rw [times_afResp hfound, if_neg fun hroom => hother ⟨horigin, hroom.1⟩,
      hmatched.counted _ req hreq hne] at hcounted
    dsimp only at hcounted
    omega
  · cases room with
    | true =>
      refine horigin (hnext.own (run.ctx.zdoCb i, origin) ?_).1
      rw [hscheduled]
      exact mem_append_right _ (mem_singleton_self _)
    | false =>
      -- the entry of another request counts the packet
      obtain ⟨j, hfoundNext, -⟩ := hnext.kept _ req
        (requests_afResp_other horigin hreq) hne (by omega)
      obtain ⟨hj, hjTsn⟩ := ZdoTransactions.found_eq_some hfoundNext
      obtain ⟨other, hotherReq, -, -, hotherPos, hotherLeft⟩ := (hnext.awaits j hj).2
      rw [hctx] at hj hjTsn hotherReq hotherPos hotherLeft
      obtain ⟨hjLive, hjSame⟩ := ZdoTransactions.live_setEnt_of_live hlive hj
      obtain rfl := hdistinct j i hjLive hlive (by rw [← hjSame, hjTsn, hreqTsn])
      rw [ZdoTransactions.zdoCb_setEnt_self] at hotherReq hotherPos hotherLeft
      obtain rfl := some.inj ((requests_afResp_other horigin hreq).symm.trans hotherReq)
      dsimp only at hotherLeft
      rw [toNat_sub_one hpos] at hotherLeft
      omega

theorem matched_afResp_iff
    (hmatched : run.Matched) (hgenuine : run.genuine tsn origin = true) :
    (run.afResp tsn origin room).Matched ↔ run.Owns tsn origin room := by
  cases hfound : run.ctx.found tsn with
  | none =>
    refine iff_of_true (matched_afResp_of_none hmatched hgenuine hfound) ?_
    intro i hlive htsn
    exact absurd htsn (ZdoTransactions.found_eq_none hfound hlive)
  | some i =>
    obtain ⟨hlive, htsn⟩ := ZdoTransactions.found_eq_some hfound
    constructor
    · intro hnext
      by_contra howns
      refine not_matched_afResp hmatched hfound (fun hown => howns ?_) hnext
      intro j hj hjTsn
      obtain ⟨hdistinct, -⟩ := waiting_iff.mp hmatched.toWaiting
      rw [hdistinct j i hj hlive (hjTsn.trans htsn.symm)]
      exact hown
    · intro howns
      obtain ⟨horigin, rfl⟩ := howns i hlive htsn
      exact ⟨settled_afResp_of_own hmatched hfound horigin,
        waiting_afResp_of_own hmatched.toWaiting hfound horigin⟩

end Arrivals

/-- A callback finds a slot and a tsn of its own.  What is passed to
`zdo_af_resp` belongs to the entry it finds.  No null callback is scheduled. -/
def Allows (run : ZdpRun) : ZdpEvent → Prop
  | .sendReq cb respCounter _ => cb ≠ none → run.ctx.CanRegister respCounter
  | .mgmtLeaveCli cb full room =>
      if full then room = true → cb ≠ none
      else cb ≠ none → run.ctx.CanRegister 1
  | .response tsn origin room => run.Owns tsn origin room
  | .systemServerDiscoveryResp tsn room =>
      tsn = run.ctx.systemServerDiscoveryTsn →
        room = true → run.ctx.systemServerDiscoveryCb ≠ none
  | .dataAcknowledged tsn origin noAck room =>
      noAck = true ∨ run.cmdNoResp origin = true → run.Owns tsn origin room
  | _ => True

def Meets (run : ZdpRun) (event : ZdpEvent) : Prop :=
  run.step event ≠ none → run.Allows event

theorem matched_start : start.Matched := by
  refine ⟨⟨?_, ?_, rfl⟩, ?_, ?_⟩
  · intro entry hmem
    exact (not_mem_nil hmem).elim
  · intro request req hreq
    contradiction
  · intro request req hreq
    contradiction
  · intro i hlive
    exact absurd rfl hlive.2

theorem matched_step_iff (hmatched : run.Matched) :
    (∀ next, run.step event = some next → next.Matched) ↔ run.Meets event := by
  have hstep : ∀ next, run.step event = some next → (next.Matched ↔ run.Allows event) →
        ((∀ next, run.step event = some next → next.Matched) ↔ run.Meets event) := by
    intro next hnext hiff
    rw [Meets, hnext, forall_prop_of_true (some_ne_none _), ← hiff]
    exact ⟨fun hall => hall next rfl, fun hnext other hother => some.inj hother ▸ hnext⟩
  have hnone : run.step event = none →
      ((∀ next, run.step event = some next → next.Matched) ↔ run.Meets event) := by
    intro hnone
    refine iff_of_true (fun next hnext => ?_) (absurd hnone)
    rw [hnone] at hnext
    contradiction
  cases event with
  | sendReq cb respCounter cmdNoResp => exact hstep _ rfl (matched_sendReq_iff hmatched)
  | sendDeviceAnnce => exact hstep _ rfl (iff_of_true (hmatched.of_zdoCb rfl) trivial)
  | systemServerDiscoveryReq cb =>
    refine hstep _ rfl (iff_of_true ?_ trivial)
    have hsent : (run.sendReq none 1 false).Matched :=
      (matched_sendReq_iff hmatched).mpr fun hne => absurd rfl hne
    exact hsent.of_zdoCb rfl
  | mgmtLeaveCli cb full room =>
    refine hstep _ rfl ?_
    cases full with
    | true => exact matched_schedule_iff hmatched
    | false => exact matched_sendReq_iff hmatched
  | response tsn origin room =>
    cases hgenuine : run.genuine tsn origin with
    | false => exact hnone (if_neg (Bool.not_eq_true _ ▸ hgenuine))
    | true => exact hstep _ (if_pos hgenuine) (matched_afResp_iff hmatched hgenuine)
  | systemServerDiscoveryResp tsn room =>
    refine hstep _ rfl ?_
    rw [Allows]
    split
    case isTrue htsn =>
      rw [forall_prop_of_true htsn]
      exact matched_schedule_iff hmatched
    case isFalse htsn => exact iff_of_true hmatched fun hsame => absurd hsame htsn
  | dataAcknowledged tsn origin noAck room =>
    cases hgenuine : run.genuine tsn origin with
    | false => exact hnone (if_neg (Bool.not_eq_true _ ▸ hgenuine))
    | true =>
      refine hstep _ (if_pos hgenuine) ?_
      rw [Allows]
      split
      case isTrue hpassed =>
        rw [forall_prop_of_true hpassed]
        exact matched_afResp_iff hmatched hgenuine
      case isFalse hkept => exact iff_of_true hmatched fun hpassed => absurd hpassed hkept

theorem everyState_matched_iff (events : List ZdpEvent) :
    EveryState step Matched start events ↔ AlongRun step Meets start events :=
  @everyState_iff_alongRun _ _ step Meets Matched (fun _ => True)
    (fun _ _ hmatched _ => matched_step_iff hmatched)
    (fun _ _ _ _ _ _ _ => trivial) start events matched_start trivial

/-- A packet of the application which is not acknowledged and begins with the
tsn of a request. -/
theorem not_everyState_matched_application : ¬ EveryState step Matched start
      [.sendReq (some 1) 1 false, .dataAcknowledged 1 none true true] := by
  intro hevery
  have hlast : Matched _ := (hevery.2 _ rfl).2 _ rfl
  have hown := (hlast.own (⟨some 1, 1, 1, 0⟩, none) (by decide)).1
  contradiction

end ZdpRun

end Zboss
