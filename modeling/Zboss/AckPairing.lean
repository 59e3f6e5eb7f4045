import Zboss.AckQueue

/-!
# Frames and their acknowledgements

Every received frame is passed on once, and acknowledged with its own fields.  The
frames in the queue are as many as the requests for buffers as long as no request
gets lost; from then on a frame stays in the queue for which there is none.
-/

namespace Zboss

open Option List BufCall ApsCallback FrontReader LinkedChain RingBuffer TransitionSystem

def BufState.SoundWith (state : BufState) (held : List ℕ) : Prop :=
  ∃ free waiting spare, BufInvariant state free waiting spare ∧
    (free : Multiset ℕ) + state.owned + state.queuedBufs + held ≤
      Multiset.range iobufPoolSize

section Held

variable {state next : BufState} {held : List ℕ} {buf : ℕ}

section

variable (hsound : state.SoundWith held)

include hsound

theorem BufState.SoundWith.sound : state.Sound := by
  obtain ⟨free, waiting, spare, hinvariant, -⟩ := hsound
  exact ⟨free, waiting, spare, hinvariant⟩

theorem BufState.SoundWith.apply {call : BufCall} (happly : call.apply state = some next) :
    next.SoundWith held := by
  obtain ⟨free, waiting, spare, hinvariant, hplaces⟩ := hsound
  obtain ⟨free', waiting', spare', lost, hrep, hdispatching, hkept, -⟩ :=
    hinvariant.apply happly
  have hle : (free' : Multiset ℕ) + next.owned + next.queuedBufs ≤
      (free : Multiset ℕ) + state.owned + state.queuedBufs := by
    rw [← hkept]
    exact Multiset.le_add_right _ lost
  refine ⟨free', waiting', spare', ⟨hrep, ?_, hdispatching⟩, ?_⟩
  · exact hle.trans hinvariant.places
  · exact (add_le_add_left hle _).trans hplaces

theorem BufState.SoundWith.not_mem_held (howned : buf ∈ state.owned) : buf ∉ held := by
  obtain ⟨free, waiting, spare, -, hplaces⟩ := hsound
  have hnodup := Multiset.nodup_of_le hplaces (Multiset.nodup_range iobufPoolSize)
  intro hheld
  have hmem : buf ∈ (free : Multiset ℕ) + state.owned + state.queuedBufs := by
    rw [Multiset.mem_add, Multiset.mem_add]
    exact .inl (.inr howned)
  exact Multiset.disjoint_left.mp (Multiset.nodup_add.mp hnodup).2.2 hmem
    (Multiset.mem_coe.mpr hheld)

theorem BufState.SoundWith.hold (howned : buf ∈ state.owned) :
    BufState.SoundWith { state with owned := state.owned.erase buf } (held ++ [buf]) := by
  obtain ⟨free, waiting, spare, hinvariant, hplaces⟩ := hsound
  have herase := Multiset.cons_erase howned
  rw [← Multiset.singleton_add] at herase
  refine ⟨free, waiting, spare, ⟨hinvariant.rep, ?_, hinvariant.dispatching⟩, ?_⟩
  · refine le_trans ?_ hinvariant.places
    exact add_le_add_left (add_le_add_right (Multiset.erase_le buf state.owned) _) _
  · refine le_trans (le_of_eq ?_) hplaces
    conv_rhs => rw [← herase]
    rw [← Multiset.coe_add, Multiset.coe_singleton]
    change (free : Multiset ℕ) + state.owned.erase buf + state.queuedBufs +
      ((held : Multiset ℕ) + {buf}) = _
    abel

end

theorem BufState.SoundWith.release (hsound : state.SoundWith (buf :: held)) :
    BufState.SoundWith { state with owned := buf ::ₘ state.owned } held := by
  obtain ⟨free, waiting, spare, hinvariant, hplaces⟩ := hsound
  rw [← Multiset.cons_coe, ← Multiset.singleton_add] at hplaces
  have hsame : (free : Multiset ℕ) + (buf ::ₘ state.owned) + state.queuedBufs + held =
        (free : Multiset ℕ) + state.owned + state.queuedBufs +
          ({buf} + (held : Multiset ℕ)) := by
    rw [← Multiset.singleton_add]
    abel
  have hle := hsame.trans_le hplaces
  exact ⟨free, waiting, spare, ⟨hinvariant.rep, (Multiset.le_add_right _ _).trans hle,
      hinvariant.dispatching⟩, hle⟩

end Held

theorem BufState.Outstanding.pos_of_drops
    {state : BufState} {func n buf : ℕ} (hn : state.Outstanding func n)
    (hdrops : state.Drops func buf) : 0 < n := by
  obtain ⟨waiting, hholds, hn⟩ := hn
  obtain ⟨-, -, ent, hent, hfunc⟩ := hdrops
  have hchain := (hholds (state.g.isInBuf buf)).chain
  have hmem : ent ∈ allWaiting waiting := by
    cases hwaiting : waiting (state.g.isInBuf buf) with
    | nil =>
      rw [hwaiting] at hchain
      rw [hchain] at hent
      contradiction
    | cons first rest =>
      rw [hwaiting] at hchain
      rw [hchain.1] at hent
      obtain rfl := some.inj hent
      rw [(allWaiting_tail hwaiting).mem_iff]
      exact mem_cons_self
  have hpos : 0 < requestsOf func state.g.delayedFunc (allWaiting waiting) :=
    countP_pos_iff.mpr ⟨ent, hmem, decide_eq_true hfunc⟩
  omega

section Parse

theorem yields_parseAddressing (apsHdr : ApsHdr) :
    (parseAddressing apsHdr).Yields fun read => read.srcAddr = apsHdr.srcAddr := by
  have hdst : (parseDstEndpoint apsHdr).Yields fun read =>
      read.srcAddr = apsHdr.srcAddr := by
    unfold parseDstEndpoint
    split
    · exact yields_bind fun _ => yields_pure rfl
    · exact yields_bind fun _ => yields_pure rfl
  unfold parseAddressing
  split
  · refine hdst.bind fun read hread => ?_
    exact yields_bind fun _ => yields_bind fun _ => yields_bind fun _ => yields_pure hread
  · exact yields_pure rfl

theorem zbApsHdrParse_srcAddr {nwkHdr : NwkAddrs} {old apsHdr : ApsHdr}
    {packet : List UInt8}
    (hparse : zbApsHdrParse (some nwkHdr) old packet = some apsHdr) :
    apsHdr.srcAddr = nwkHdr.srcAddr := by
  cases packet with
  | nil => contradiction
  | cons fc apshdr =>
    obtain ⟨read, hread, rfl⟩ := map_eq_some_iff.mp hparse
    have hyields : (parseAddressing (startApsHdr (some nwkHdr) old fc) >>=
        parseApsCounter).Yields fun read => read.srcAddr = nwkHdr.srcAddr :=
      (yields_parseAddressing _).bind fun read hread =>
        yields_bind fun _ => yields_pure hread
    exact hyields apshdr read hread

theorem tells_of_zbApsHdrParse {nwkHdr : Option NwkAddrs}
    {old apsHdr : ApsHdr} {fields : ApsHdrFields} {rest : List UInt8}
    (hparse : zbApsHdrParse nwkHdr old (fields.bytes ++ rest) = some apsHdr) :
    apsHdr.Tells fields := by
  rw [zbApsHdrParse_bytes] at hparse
  rw [← some.inj hparse]
  exact tells_setAddressing (startApsHdr_fc nwkHdr old fields.fc.byte)

theorem ackedBy_apsAckSendHandle {frame : ApsFrame} {old apsHdr : ApsHdr}
    (hparse : zbApsHdrParse (some frame.nwkHdr) old frame.apsdu = some apsHdr) :
    frame.AckedBy ⟨apsHdr.srcAddr, apsAckSendHandle apsHdr⟩ where
  dstAddr := zbApsHdrParse_srcAddr hparse
  fields := by
    refine ⟨old, apsHdr, hparse, apsAckSendHandle_eq_bytes apsHdr, ?_⟩
    intro fields rest hframe
    rw [hframe] at hparse
    exact tells_of_zbApsHdrParse hparse

theorem ApsFrame.Complete.parses {frame : ApsFrame} (hfull : frame.Complete)
    (nwkHdr : Option NwkAddrs) (old : ApsHdr) :
    ∃ apsHdr, zbApsHdrParse nwkHdr old frame.apsdu = some apsHdr := by
  obtain ⟨frameNwk, apsdu⟩ := frame
  cases apsdu with
  | nil => exact absurd hfull (Nat.not_lt_zero _)
  | cons fc apshdr =>
    have hfull : addressingSize fc + 1 < (fc :: apshdr).length := hfull
    have hcounter := zbApsHdrParse_apsCounter nwkHdr old fc apshdr
    rw [List.getElem?_eq_getElem hfull] at hcounter
    obtain ⟨apsHdr, hparse, -⟩ := map_eq_some_iff.mp hcounter
    exact ⟨apsHdr, hparse⟩

end Parse

namespace AckRun

section Continue

variable {run next : AckRun} {apsHdr : ApsHdr} {param : ℕ}

structure Continues (run next : AckRun) (param : ℕ) : Prop where
  continued : next.continued = run.continued ++ [run.packet param]
  received : next.received = run.received
  packet : next.packet = run.packet
  ackQ : next.ackQ = run.ackQ
  ackBuf : next.ackBuf = none
  acks : next.acks = run.acks ∨ ∃ frame ack,
    run.received[run.packet param]? = some frame ∧ frame.AckedBy ack ∧
      next.acks = run.acks ++ [(run.packet param, ack)]
  pool : (run.ackBuf = none ∧ next.pool = run.pool) ∨ ∃ buf, run.ackBuf = some buf ∧
      (scheduleCallback nldeDataRequest.address (some buf)).apply run.pool = some next.pool

theorem continues (hcontinue : run.zbNldeDataIndicationContinue apsHdr param = some next) :
    run.Continues next param := by
  obtain ⟨frame, hframe, hrest⟩ := bind_eq_some_iff.mp hcontinue
  obtain ⟨read, hparse, hrest⟩ := bind_eq_some_iff.mp hrest
  dsimp only at hrest
  cases hbuf : run.ackBuf with
  | none =>
    rw [hbuf] at hrest
    obtain rfl := some.inj hrest
    exact ⟨rfl, rfl, rfl, rfl, rfl, .inl rfl, .inl ⟨hbuf, rfl⟩⟩
  | some buf =>
    rw [hbuf] at hrest
    obtain ⟨pool, hschedule, hnext⟩ := bind_eq_some_iff.mp hrest
    obtain rfl := some.inj hnext
    refine ⟨rfl, rfl, rfl, rfl, rfl, .inr ?_, .inr ⟨buf, hbuf, hschedule⟩⟩
    exact ⟨frame, _, hframe, ackedBy_apsAckSendHandle hparse, rfl⟩

theorem Continues.recorded (hcontinues : run.Continues next param)
    (hframes : (run.continued ++ run.packet param :: run.waiting.map run.packet).Perm
        (List.range run.received.length))
    (honce : (run.acks.map Prod.fst).Sublist run.continued)
    (hacks : ∀ ack ∈ run.acks, ∃ frame,
      run.received[ack.1]? = some frame ∧ frame.AckedBy ack.2) :
    next.Recorded where
  frames := by
    rw [waiting, hcontinues.continued, hcontinues.ackQ, hcontinues.packet,
      hcontinues.received, append_assoc]
    exact hframes
  once := by
    rw [hcontinues.continued]
    rcases hcontinues.acks with hsame | ⟨frame, ack, -, -, hack⟩
    · rw [hsame]
      exact honce.trans (sublist_append_left _ _)
    · rw [hack, map_append]
      exact honce.append (List.Sublist.refl _)
  acks := by
    rw [hcontinues.received]
    rcases hcontinues.acks with hsame | ⟨frame, ack, hframe, hacked, hack⟩
    · rw [hsame]
      exact hacks
    · rw [hack]
      intro other hother
      rcases mem_append.mp hother with hold | hnew
      · exact hacks other hold
      · rw [mem_singleton.mp hnew]
        exact ⟨frame, hframe, hacked⟩

end Continue

structure Sound (run : AckRun) : Prop where
  pool : run.pool.SoundWith run.waiting
  ring : run.ackQ.Valid apsRetransAckQSize
  ackBuf : run.ackBuf = none
  complete : ∀ frame ∈ run.received, frame.Complete

structure Outcome (next : AckRun) (condition : Prop) : Prop where
  sound : next.Sound
  recorded : next.Recorded
  requested : next.Requested ↔ condition

section Steps

variable {run next : AckRun} {apsHdr : ApsHdr} {param n : ℕ} {frame : ApsFrame}

theorem Recorded.setPool (hrecorded : run.Recorded) (pool : BufState) :
    Recorded { run with pool := pool } :=
  ⟨hrecorded.frames, hrecorded.once, hrecorded.acks⟩

theorem requested_iff (hsound : next.Sound)
    (hn : next.pool.Outstanding apsSendAckAndContinue.address n) :
    next.Requested ↔ n = next.ackQ.written := by
  constructor
  · intro hrequested
    exact hn.unique hsound.pool.sound hrequested
  · intro heq
    rw [Requested, ← heq]
    exact hn

theorem outcome_pool {call : BufCall} {pool : BufState}
    (hsound : run.Sound) (hpaired : run.Paired)
    (hother : OtherCode run.pool call)
    (happly : call.apply run.pool = some pool) :
    Outcome { run with pool := pool } (run.Grants (.pool call)) := by
  have hafter := hpaired.requested.apply hsound.pool.sound happly
  have hsound' : Sound { run with pool := pool } :=
    ⟨hsound.pool.apply happly, hsound.ring, hsound.ackBuf, hsound.complete⟩
  refine ⟨hsound', hpaired.recorded.setPool pool, ?_⟩
  rw [requested_iff hsound' hafter]
  cases call with
  | freeBuf buf =>
    have howned : buf ∈ run.pool.owned := by
      rw [apply] at happly
      split at happly
      · assumption
      · contradiction
    simp only [outstandingAfter, Grants, howned, true_imp_iff]
    split
    · rename_i hdrops
      have hpos := hpaired.requested.pos_of_drops hdrops
      simp only [hdrops, not_true_eq_false, iff_false]
      omega
    · rename_i hkept
      simp [hkept]
  | getBufDelayed callback isIn =>
    have hcallback : callback ≠ apsSendAckAndContinue.address := hother
    simp [outstandingAfter, Grants, hcallback]
  | scheduleCallback callback param =>
    have hcallback : callback ≠ apsSendAckAndContinue.address := hother
    simp [outstandingAfter, Grants, hcallback]
  | dispatch =>
    rw [outstandingAfter, if_neg hother]
    exact iff_of_true rfl trivial
  | getBuf _ | dispatchEnd | macReceive | macReceived => exact iff_of_true rfl trivial

theorem note_frames (frame : ApsFrame) (hrecorded : run.Recorded)
    (hparam : param ∉ run.waiting) :
    (run.continued ++ (run.waiting ++ [param]).map (run.note param frame).packet).Perm
        (List.range (run.note param frame).received.length) := by
  have hkept : run.waiting.map (run.note param frame).packet =
      run.waiting.map run.packet := by
    apply map_congr_left
    intro buf hbuf
    apply Function.update_of_ne
    rintro rfl
    exact hparam hbuf
  have hnew : (run.note param frame).packet param = run.received.length :=
    Function.update_self _ _ _
  have hlength : (run.note param frame).received.length =
      run.received.length + 1 := length_append
  rw [map_append, map_singleton, hkept, hnew, hlength, range_succ, ← append_assoc]
  exact hrecorded.frames.append_right _

theorem note_acks (param : ℕ) (frame : ApsFrame) (hrecorded : run.Recorded) :
    ∀ ack ∈ (run.note param frame).acks, ∃ acked,
      (run.note param frame).received[ack.1]? = some acked ∧ acked.AckedBy ack.2 := by
  intro ack hack
  obtain ⟨acked, hacked, hby⟩ := hrecorded.acks ack hack
  have hlt := (List.getElem?_eq_some_iff.mp hacked).1
  exact ⟨acked, (List.getElem?_append_left hlt).trans hacked, hby⟩

theorem note_complete (param : ℕ) (hsound : run.Sound) (hfull : frame.Complete) :
    ∀ other ∈ (run.note param frame).received, other.Complete := by
  intro other hother
  rcases mem_append.mp hother with hold | hnew
  · exact hsound.complete other hold
  · rw [mem_singleton.mp hnew]
    exact hfull

section

variable (hsound : run.Sound) (hpaired : run.Paired)
  (howned : param ∈ run.pool.owned) (hfull : frame.Complete)

include hsound hpaired howned hfull

theorem outcome_queueForAck (hroom : run.ackQ.written < apsRetransAckQSize)
    (hqueue : (run.note param frame).queueForAck param = some next) :
    Outcome next (¬ run.pool.Refuses false) := by
  obtain ⟨pool, happly, rfl⟩ := map_eq_some_iff.mp hqueue
  have hheld := hsound.pool.hold howned
  have hbefore : BufState.Outstanding { run.pool with owned := run.pool.owned.erase param }
        apsSendAckAndContinue.address run.ackQ.written :=
    hpaired.requested.congr rfl rfl rfl rfl rfl
  have hafter := hbefore.apply hheld.sound happly
  have hwaiting : (run.ackQ.put apsRetransAckQSize param).contents
      apsRetransAckQSize = run.waiting ++ [param] :=
    hsound.ring.contents_put hroom param
  have hsound' : Sound
      { run.note param frame with
        pool := pool
        ackQ := run.ackQ.put apsRetransAckQSize param } := by
    refine ⟨?_, hsound.ring.put hroom param, hsound.ackBuf,
      note_complete param hsound hfull⟩
    rw [waiting, hwaiting]
    exact hheld.apply happly
  refine ⟨hsound', ?_, ?_⟩
  · refine ⟨?_, hpaired.recorded.once, note_acks param frame hpaired.recorded⟩
    have hframes := note_frames frame hpaired.recorded (hsound.pool.not_mem_held howned)
    rw [← hwaiting] at hframes
    exact hframes
  · refine (requested_iff hsound' hafter).trans ?_
    have hrefuses : BufState.Refuses
        { run.pool with owned := run.pool.owned.erase param } false ↔
          run.pool.Refuses false := Iff.rfl
    change (if _ ∧ ¬ BufState.Refuses _ false then _ else _) = run.ackQ.written + 1 ↔ _
    simp only [hrefuses, true_and]
    split
    · rename_i haccepted
      exact iff_of_true rfl haccepted
    · rename_i hrefused
      exact iff_of_false (by omega) hrefused

theorem outcome_continue
    (hcontinue : (run.note param frame).zbNldeDataIndicationContinue apsHdr
      param = some next) : Outcome next True := by
  have hcontinues := continues hcontinue
  have hpool : next.pool = run.pool := by
    rcases hcontinues.pool with ⟨-, hsame⟩ | ⟨buf, hbuf, -⟩
    · exact hsame
    · exact absurd (hsound.ackBuf.symm.trans hbuf) (some_ne_none buf).symm
  have hackQ : next.ackQ = run.ackQ := hcontinues.ackQ
  have hwaiting : next.waiting = run.waiting := by rw [waiting, hackQ]; rfl
  refine ⟨⟨?_, ?_, hcontinues.ackBuf, ?_⟩, ?_, ?_⟩
  · rw [hpool, hwaiting]
    exact hsound.pool
  · rw [hackQ]
    exact hsound.ring
  · rw [hcontinues.received]
    exact note_complete param hsound hfull
  · refine hcontinues.recorded ?_ hpaired.recorded.once
      (note_acks param frame hpaired.recorded)
    have hframes := note_frames frame hpaired.recorded (hsound.pool.not_mem_held howned)
    have hfirst := (perm_append_singleton param run.waiting).symm
    exact ((hfirst.map _).append_left _).trans hframes
  · rw [Requested, hpool, hackQ]
    exact iff_of_true hpaired.requested trivial

theorem outcome_receive
    (hreceive : run.zbNldeDataIndication apsHdr param frame = some next) :
    Outcome next (run.Grants (.receive param frame apsHdr)) := by
  rw [zbNldeDataIndication] at hreceive
  simp only [Grants, howned, hfull, true_imp_iff]
  split at hreceive
  · rename_i hack
    obtain ⟨pool, hfree, rfl⟩ := map_eq_some_iff.mp hreceive
    have hother : OtherCode run.pool (.freeBuf param) := trivial
    have houtcome := outcome_pool hsound hpaired hother hfree
    simp only [Grants, howned, true_imp_iff] at houtcome
    rw [if_pos hack]
    exact houtcome
  · rename_i hdata
    rw [if_neg hdata]
    split at hreceive
    · rename_i hqueues
      simp only [hqueues, true_imp_iff]
      exact outcome_queueForAck hsound hpaired howned hfull hqueues.2 hreceive
    · rename_i hqueues
      simp only [hqueues, false_imp_iff]
      exact outcome_continue hsound hpaired howned hfull hreceive

end

theorem outcome_grant (hsound : run.Sound) (hpaired : run.Paired)
    (hstep : run.step (.grant apsHdr) = some next) : Outcome next True := by
  obtain ⟨ent, hpeek, hrest⟩ := bind_eq_some_iff.mp hstep
  split at hrest
  · rename_i hfunc
    obtain ⟨pool, hdispatch, hrest⟩ := bind_eq_some_iff.mp hrest
    obtain ⟨param, -, hsend⟩ := bind_eq_some_iff.mp hrest
    obtain ⟨inPkt, hfirst, hcontinue⟩ := bind_eq_some_iff.mp hsend
    have hcalled : dispatch.apply run.pool = some pool := hdispatch
    have hafter := hpaired.requested.apply hsound.pool.sound hcalled
    have hheld := hsound.pool.apply hcalled
    rw [outstandingAfter, if_pos ⟨ent, hpeek, hfunc⟩] at hafter
    have hpos : 0 < run.ackQ.written := by
      rw [RingBuf.peek] at hfirst
      split at hfirst
      · contradiction
      · rename_i hne
        exact Nat.pos_of_ne_zero hne
    rw [RingBuf.peek_eq_head? hsound.ring] at hfirst
    obtain ⟨rest, hwaiting⟩ := List.head?_eq_some_iff.mp hfirst
    have hrest : (run.ackQ.flushGet apsRetransAckQSize).contents
        apsRetransAckQSize = rest := by
      rw [RingBuf.contents_flushGet hpos, hwaiting, tail_cons]
    rw [waiting, hwaiting] at hheld
    have hcontinues := continues hcontinue
    rcases hcontinues.pool with ⟨hnone, -⟩ | ⟨buf, -, hschedule⟩
    · exact absurd hnone (some_ne_none param)
    have hreleased := hheld.release
    have howner : BufState.Outstanding { pool with owned := inPkt ::ₘ pool.owned }
          apsSendAckAndContinue.address (run.ackQ.written - 1) :=
      hafter.congr rfl rfl rfl rfl rfl
    have hrequests := howner.apply hreleased.sound hschedule
    have hothers : nldeDataRequest.address ≠ apsSendAckAndContinue.address := by decide
    rw [outstandingAfter, if_neg fun hsame => hothers hsame.1] at hrequests
    refine ⟨⟨?_, ?_, hcontinues.ackBuf, ?_⟩, ?_, ?_⟩
    · rw [waiting, hcontinues.ackQ, hrest]
      exact hreleased.apply hschedule
    · rw [hcontinues.ackQ]
      exact hsound.ring.flushGet hpos
    · rw [hcontinues.received]
      exact hsound.complete
    · refine hcontinues.recorded ?_ hpaired.recorded.once hpaired.recorded.acks
      have hframes := hpaired.recorded.frames
      rw [waiting, hwaiting] at hframes
      rw [waiting, hrest]
      exact hframes
    · rw [Requested, hcontinues.ackQ]
      exact iff_of_true hrequests trivial
  · contradiction

theorem outcome_step {event : Event} (hsound : run.Sound)
    (hpaired : run.Paired) (hstep : run.step event = some next) :
    Outcome next (run.Grants event) := by
  cases event with
  | pool call =>
    rw [step] at hstep
    split at hstep
    · rename_i hother
      obtain ⟨pool, happly, rfl⟩ := map_eq_some_iff.mp hstep
      exact outcome_pool hsound hpaired hother happly
    · contradiction
  | receive param frame apsHdr =>
    rw [step] at hstep
    split at hstep
    · rename_i hguard
      exact outcome_receive hsound hpaired hguard.1 hguard.2 hstep
    · contradiction
  | grant apsHdr => exact outcome_grant hsound hpaired hstep

theorem freeBuf_returns {pool : BufState} {func buf : ℕ} (hsound : pool.Sound)
    (howned : buf ∈ pool.owned) (hdrops : pool.Drops func buf) :
    ∃ pool', (freeBuf buf).apply pool = some pool' := by
  apply hsound.returns_of_not_safe
  intro hsafe
  obtain ⟨hfull, hneeded, ent, hent, -⟩ := hdrops
  have hhead : (pool.g.bufQueue (pool.g.isInBuf buf)).head ≠ none := by
    intro hnone
    rw [hnone] at hent
    contradiction
  exact Nat.not_lt_of_le hfull (hsafe howned hhead hneeded)

theorem getBufDelayed_returns {pool : BufState} (callback : ℕ) (isIn : Bool)
    (hsound : pool.Sound) :
    ∃ pool', (getBufDelayed callback isIn).apply pool =
      some pool' := by
  obtain ⟨free, waiting, spare, hinvariant⟩ := hsound
  rw [apply]
  rcases hinvariant.rep.zbGetBufDelayed callback isIn with
    ⟨_, _, g', _, _, _, hsome, _⟩ | ⟨_, _, g', _, _, hsome, _⟩ | ⟨_, hsome⟩
  · exact ⟨_, by rw [hsome]; rfl⟩
  · exact ⟨_, by rw [hsome]; rfl⟩
  · exact ⟨_, by rw [hsome]; rfl⟩

theorem step_of_not_grants {event : Event} (hsound : run.Sound)
    (hlost : ¬ run.Grants event) : ∃ next, run.step event = some next := by
  cases event with
  | pool call =>
    cases call with
    | freeBuf buf =>
      simp only [Grants, Classical.not_imp, not_not] at hlost
      obtain ⟨pool, happly⟩ := freeBuf_returns hsound.pool.sound hlost.1 hlost.2
      refine ⟨{ run with pool := pool }, ?_⟩
      rw [step, if_pos (show OtherCode run.pool (.freeBuf buf) from trivial), happly]
      rfl
    | _ => exact absurd trivial hlost
  | receive param frame apsHdr =>
    simp only [Grants, Classical.not_imp] at hlost
    obtain ⟨howned, hfull, hlost⟩ := hlost
    rw [step, if_pos ⟨howned, hfull⟩, zbNldeDataIndication]
    split at hlost
    · rename_i hack
      obtain ⟨pool, happly⟩ := freeBuf_returns hsound.pool.sound howned (not_not.mp hlost)
      rw [if_pos hack, happly]
      exact ⟨_, rfl⟩
    · rename_i hdata
      rw [Classical.not_imp] at hlost
      rw [if_neg hdata, if_pos hlost.1, queueForAck]
      have hheld := hsound.pool.hold howned
      obtain ⟨pool, happly⟩ := getBufDelayed_returns
        apsSendAckAndContinue.address false hheld.sound
      exact ⟨_, congrArg _ happly⟩
  | grant apsHdr => exact absurd trivial hlost

end Steps

theorem continue_returns (run : AckRun) (apsHdr : ApsHdr) {param : ℕ} {frame : ApsFrame}
    (hframe : run.received[run.packet param]? = some frame)
    (hfull : frame.Complete)
    (hbuf : ∀ buf ∈ run.ackBuf, buf ∈ run.pool.owned) :
    ∃ next, run.zbNldeDataIndicationContinue apsHdr param = some next := by
  obtain ⟨read, hparse⟩ := hfull.parses (some frame.nwkHdr) apsHdr
  rw [zbNldeDataIndicationContinue]
  simp only [hframe, hparse, bind_eq_bind, bind_some]
  cases hack : run.ackBuf with
  | none => exact ⟨_, rfl⟩
  | some buf =>
    have howned : (((some buf).toList : List ℕ) : Multiset ℕ) ≤ run.pool.owned := by
      rw [toList_some, Multiset.coe_singleton, Multiset.singleton_le]
      exact hbuf buf hack
    have hschedule : ∃ pool, (scheduleCallback
        nldeDataRequest.address (some buf)).apply run.pool =
          some pool := by
      rw [apply, if_pos howned]
      split
      · exact ⟨_, rfl⟩
      · exact ⟨_, rfl⟩
    obtain ⟨pool, hschedule⟩ := hschedule
    dsimp only
    rw [hschedule]
    exact ⟨_, rfl⟩

theorem serves {run : AckRun} (hsound : run.Sound) (hrecorded : run.Recorded)
    (hrequested : run.Requested) : run.Serves := by
  intro buf apsHdr hidle hpeek
  obtain ⟨free, waiting', spare, hinvariant, -⟩ := hsound.pool
  have hhead := hpeek
  rw [RingBuf.peek_eq_head? hinvariant.rep.ring] at hhead
  obtain ⟨queued, hqueued⟩ := List.head?_eq_some_iff.mp hhead
  obtain ⟨waits, -, hcount⟩ := hrequested
  rw [BufState.queuedEnts, hidle, if_neg Bool.false_ne_true, hqueued,
    callsOf_cons, if_pos rfl] at hcount
  cases hwaiting : run.waiting with
  | nil =>
    have hlength : run.waiting.length = run.ackQ.written := RingBuf.contents_length
    rw [hwaiting, length_nil] at hlength
    omega
  | cons inPkt rest =>
    have hfirst : run.ackQ.peek = some inPkt := by
      rw [RingBuf.peek_eq_head? hsound.ring]
      exact congrArg List.head? hwaiting
    have hnumber : run.packet inPkt < run.received.length := by
      rw [← mem_range, ← hrecorded.frames.mem_iff, hwaiting]
      simp
    have hframe := List.getElem?_eq_getElem hnumber
    have hfull := hsound.complete _ (getElem_mem hnumber)
    obtain ⟨next, hcontinue⟩ := continue_returns
      { run with
        pool :=
          { run.pool with
            owned := inPkt ::ₘ (run.pool.owned + (some buf).toList)
            dispatching := true }
        ackQ := run.ackQ.flushGet apsRetransAckQSize
        ackBuf := some buf }
      apsHdr hframe hfull (by simp)
    refine ⟨next, ?_, ?_⟩
    · have hdispatch : run.pool.dispatch = some
          { run.pool with
            owned := run.pool.owned + (some buf).toList
            dispatching := true } := by
        rw [BufState.dispatch, hidle, hpeek]
      simp only [step, hpeek, hdispatch, bind_eq_bind,
        bind_some, if_true, zbApsSendAckAndContinue, hfirst]
      exact hcontinue
    · rw [(continues hcontinue).continued, length_append]
      rfl

theorem waiting_start : start.waiting = [] := rfl

theorem sound_start : start.Sound where
  pool := by
    obtain ⟨free, waiting, spare, hinvariant⟩ := Zboss.sound_start
    refine ⟨free, waiting, spare, hinvariant, ?_⟩
    rw [waiting_start, Multiset.coe_nil, add_zero]
    exact hinvariant.places
  ring := ⟨by decide, by decide, rfl⟩
  ackBuf := rfl
  complete _ hframe := absurd hframe not_mem_nil

theorem recorded_start : start.Recorded where
  frames := List.Perm.refl _
  once := List.Sublist.refl _
  acks _ hack := absurd hack not_mem_nil

theorem paired_start : start.Paired where
  recorded := recorded_start
  requested := outstanding_start _
  serves := serves sound_start recorded_start (outstanding_start _)

/-- In every run, each received frame is passed on exactly once or waits for a
buffer which is requested for it, and is acknowledged with its own fields, exactly
if no request for a buffer is refused or dropped. -/
theorem everyState_acksPaired_iff (events : List Event) :
    EveryState step Paired start events ↔
      AlongRun step Grants start events := by
  have hexact : ∀ run event, Paired run → Sound run →
      ((∀ next, step run event = some next → Paired next) ↔
        Grants run event) := by
    intro run event hpaired hsound
    constructor
    · intro hnext
      by_contra hlost
      obtain ⟨next, hstep⟩ := step_of_not_grants hsound hlost
      have houtcome := outcome_step hsound hpaired hstep
      exact hlost (houtcome.requested.mp (hnext next hstep).requested)
    · intro hgrants next hstep
      have houtcome := outcome_step hsound hpaired hstep
      have hrequested := houtcome.requested.mpr hgrants
      exact ⟨houtcome.recorded, hrequested,
        serves houtcome.sound houtcome.recorded hrequested⟩
  exact everyState_iff_alongRun hexact (fun _ _ _ hpaired hsound _ hstep =>
      (outcome_step hsound hpaired hstep).sound)
    paired_start sound_start

def askingFrame : ApsFrame := ⟨⟨1, 0⟩, [0x40, 1, 6, 0, 4, 1, 1, 9]⟩

def receivedIntoFullRing : List Event :=
  [.pool (.getBuf true), .pool (.scheduleCallback 5 (some 0))] ++
    List.replicate 15 (.pool (.scheduleCallback 6 none)) ++ [.pool .dispatch,
        .receive 0 askingFrame ⟨0, 0, 0, 0, 0, 0, 0, 0, 0⟩]

/-- The frame is queued, and there is no request. -/
theorem not_everyState_paired_fullRing : (run step start receivedIntoFullRing).map
        (fun run => (run.waiting, run.continued)) = some ([0], []) ∧
      ¬ ∀ events, EveryState step Paired start events := by
  refine ⟨by decide +kernel, ?_⟩
  intro hevery
  have hend : (run step start receivedIntoFullRing).map (fun run =>
      (run.ackQ.written, callsOf apsSendAckAndContinue.address run.pool.queuedEnts,
        (run.pool.g.bufQueue false).head,
        (run.pool.g.bufQueue true).head)) = some (1, 0, none, none) := by
    decide +kernel
  obtain ⟨last, hrun, heq⟩ := map_eq_some_iff.mp hend
  simp only [Prod.mk.injEq] at heq
  obtain ⟨hwritten, hcalls, hout, hin⟩ := heq
  obtain ⟨waiting, hholds, hn⟩ := ((hevery receivedIntoFullRing).last hrun).requested
  have hnoOut : waiting false = [] := chain_none.mp (hout ▸ (hholds false).chain)
  have hnoIn : waiting true = [] := chain_none.mp (hin ▸ (hholds true).chain)
  rw [hwritten, hcalls, allWaiting, hnoOut, hnoIn] at hn
  contradiction

end AckRun

end Zboss
