import Zboss.PassiveAcks

/-!
# What is sent for a broadcast

A broadcast is sent to all neighbors a few times, and once to each end device
which is a child.  An entry of the table waits for its next child, and its log
has what has been sent.
-/

namespace Zboss

structure ChildTable where
  eligible : ℕ → ℕ → Prop
  address : ℕ → ℕ

def childTable (zg : Globals) : ChildTable where
  eligible := NwkMain.EligibleChild zg
  address := rowAddress zg

def ChildTable.Distinct (table : ChildTable) : Prop :=
  ∀ addr n k, table.eligible addr n → table.eligible addr k →
    table.address n = table.address k → n = k

structure Transmission where
  child : Option ℕ
  buf : ℕ
  packet : NwkPacket

/-- A broadcast, with the stored buffer, its originator and its destination,
and what has been sent for it since `zb_nwk_forward`. -/
structure EntryLog where
  buf : ℕ
  srcAddr : ℕ
  dstAddr : ℕ
  sent : List Transmission

namespace EntryLog

def append (log : EntryLog) (sent : List Transmission) : EntryLog :=
  { log with sent := log.sent ++ sent }

def copies (log : EntryLog) (child : Option ℕ) : ℕ :=
  log.sent.countP fun transmission => transmission.child = child

def Reaches (log : EntryLog) (table : ChildTable) (n : ℕ) : Prop :=
  table.eligible log.dstAddr n ∧ table.address n ≠ log.srcAddr

structure Kept (log : EntryLog) (table : ChildTable) : Prop where
  broadcasts : log.copies none ≤ nwkMaxBroadcastRetries
  once : ∀ n, log.copies (some n) ≤ 1
  spared : ∀ n, ¬ log.Reaches table n → log.copies (some n) = 0
  addressed : ∀ transmission ∈ log.sent, ∀ n, transmission.child = some n →
    transmission.packet.macDst = table.address n ∧ transmission.packet.indirect = true

structure Underway (log : EntryLog) (table : ChildTable) : Prop where
  kept : log.Kept table
  stored : ∀ transmission ∈ log.sent, transmission.buf ≠ log.buf

structure Finished (log : EntryLog) (table : ChildTable) : Prop where
  kept : log.Kept table
  reached : ∀ n, log.Reaches table n → log.copies (some n) = 1
  stored : ∃ before last, log.sent = before ++ [last] ∧
    last.buf = log.buf ∧ ∀ transmission ∈ before, transmission.buf ≠ log.buf

end EntryLog

def ChildTable.Next (table : ChildTable) (addr i : ℕ) : Option ℕ → Prop
  | some n => i ≤ n ∧ table.eligible addr n ∧ ∀ k, i ≤ k → k < n → ¬ table.eligible addr k
  | none => ∀ k, i ≤ k → ¬ table.eligible addr k

theorem next_nextZeChildrenI (zg : Globals) (addr i : ℕ) :
    (childTable zg).Next addr i (NwkMain.nextZeChildrenI zg addr i) := by
  cases hnext : NwkMain.nextZeChildrenI zg addr i with
  | some n => exact NwkMain.nextZeChildrenI_eq_some.mp hnext
  | none => exact NwkMain.nextZeChildrenI_eq_none.mp hnext

def Before (iter : Option ℕ) (n : ℕ) : Prop := ∀ k, iter = some k → n < k

section Next

variable {table : ChildTable} {addr i m : ℕ} {iter : Option ℕ}

theorem ChildTable.Next.eligible (hnext : table.Next addr i iter) (hm : iter = some m) :
    i ≤ m ∧ table.eligible addr m := by
  subst hm
  exact ⟨hnext.1, hnext.2.1⟩

theorem ChildTable.Next.before_iff
    (hnext : table.Next addr i iter) (hm : table.eligible addr m) :
    Before iter m ↔ m < i := by
  cases iter with
  | some n =>
    obtain ⟨hle, -, hbetween⟩ := hnext
    constructor
    · intro hbefore
      by_contra hge
      exact hbetween m (Nat.le_of_not_lt hge) (hbefore n rfl) hm
    · rintro hlt _ ⟨⟩
      omega
  | none =>
    constructor
    · intro _
      by_contra hge
      exact hnext m (Nat.le_of_not_lt hge) hm
    · rintro _ _ ⟨⟩

end Next

structure Served (table : ChildTable) (ent : NwkBroadcastRetransmit) (log : EntryLog) :
    Prop where
  buf : log.buf = ent.buf
  dstAddr : log.dstAddr = ent.dstAddr
  retries : log.copies none = ent.retries
  few : ent.retries ≤ nwkMaxBroadcastRetries
  child : ∀ n, ent.neighborTableIterator = some n → table.eligible ent.dstAddr n
  reached : ∀ n, log.Reaches table n → Before ent.neighborTableIterator n →
    log.copies (some n) = 1
  spared : ∀ n, ¬ (log.Reaches table n ∧ Before ent.neighborTableIterator n) →
    log.copies (some n) = 0
  addressed : ∀ transmission ∈ log.sent, ∀ n, transmission.child = some n →
    transmission.packet.macDst = table.address n ∧ transmission.packet.indirect = true
  -- after the last broadcast the originator has been passed over
  later : ent.retries = nwkMaxBroadcastRetries → ∀ n, ent.neighborTableIterator = some n →
      ∀ k, n ≤ k → ¬ (table.eligible ent.dstAddr k ∧ table.address k = log.srcAddr)

structure Progress (table : ChildTable) (ent : NwkBroadcastRetransmit) (log : EntryLog) :
    Prop where
  served : Served table ent log
  stored : ∀ transmission ∈ log.sent, transmission.buf ≠ log.buf
  unspent : ent.retries = nwkMaxBroadcastRetries → ent.neighborTableIterator ≠ none

theorem EntryLog.copies_append (log : EntryLog) (transmission : Transmission)
    (child : Option ℕ) :
    (log.append [transmission]).copies child =
      log.copies child + if transmission.child = child then 1 else 0 := by
  simp [EntryLog.copies, EntryLog.append, List.countP_append, List.countP_singleton]

section Served

variable {table : ChildTable} {ent : NwkBroadcastRetransmit} {log : EntryLog}
  {transmission : Transmission} {iter : Option ℕ} {n : ℕ}

theorem Served.kept (hserved : Served table ent log) : log.Kept table where
  broadcasts := hserved.retries ▸ hserved.few
  once := by
    intro n
    by_cases hreached : log.Reaches table n ∧ Before ent.neighborTableIterator n
    · exact (hserved.reached n hreached.1 hreached.2).le
    · rw [hserved.spared n hreached]
      exact Nat.zero_le 1
  spared := fun n hn => hserved.spared n fun h => hn h.1
  addressed := hserved.addressed

theorem Progress.underway (hprogress : Progress table ent log) : log.Underway table :=
  ⟨hprogress.served.kept, hprogress.stored⟩

theorem Served.finished (hserved : Served table ent (log.append [transmission]))
    (hiter : ent.neighborTableIterator = none)
    (hbuf : transmission.buf = log.buf)
    (hstored : ∀ earlier ∈ log.sent, earlier.buf ≠ log.buf) :
    (log.append [transmission]).Finished table where
  kept := hserved.kept
  reached := by
    intro n hn
    refine hserved.reached n hn ?_
    rw [hiter]
    rintro k ⟨⟩
  stored := ⟨log.sent, transmission, rfl, hbuf, hstored⟩

theorem Served.passed (hserved : Served table ent log)
    (hiter : ent.neighborTableIterator = some n)
    (hsource : table.address n = log.srcAddr)
    (hnext : table.Next ent.dstAddr (n + 1) iter) :
    Served table { ent with neighborTableIterator := iter } log where
  buf := hserved.buf
  dstAddr := hserved.dstAddr
  retries := hserved.retries
  few := hserved.few
  child := fun _ hk => (hnext.eligible hk).2
  reached := by
    intro k hreaches hbefore
    apply hserved.reached k hreaches
    have hk : table.eligible ent.dstAddr k := hserved.dstAddr ▸ hreaches.1
    have hlt := (hnext.before_iff hk).mp hbefore
    have hne : k ≠ n := by
      rintro rfl
      exact hreaches.2 hsource
    intro m hm
    rw [hiter] at hm
    obtain rfl := Option.some.inj hm
    omega
  spared := by
    intro k hk
    apply hserved.spared k
    rintro ⟨hreaches, hbefore⟩
    have helig : table.eligible ent.dstAddr k := hserved.dstAddr ▸ hreaches.1
    have hlt := hbefore n hiter
    exact hk ⟨hreaches, (hnext.before_iff helig).mpr (by omega)⟩
  addressed := hserved.addressed
  later := by
    intro hmax
    exact absurd ⟨hserved.child n hiter, hsource⟩ (hserved.later hmax n hiter n le_rfl)

theorem Progress.passed (hprogress : Progress table ent log)
    (hiter : ent.neighborTableIterator = some n)
    (hsource : table.address n = log.srcAddr)
    (hnext : table.Next ent.dstAddr (n + 1) iter) :
    Progress table { ent with neighborTableIterator := iter } log where
  served := hprogress.served.passed hiter hsource hnext
  stored := hprogress.stored
  unspent := by
    intro hmax
    exact absurd ⟨hprogress.served.child n hiter, hsource⟩
      (hprogress.served.later hmax n hiter n le_rfl)

theorem Served.broadcast
    (hserved : Served table ent log) (hchild : transmission.child = none)
    (hfew : ent.retries < nwkMaxBroadcastRetries)
    (hlater : ent.retries + 1 = nwkMaxBroadcastRetries →
      ∀ n, ent.neighborTableIterator = some n →
        ∀ k, n ≤ k → ¬ (table.eligible ent.dstAddr k ∧ table.address k = log.srcAddr))
    (time : UInt16) :
    Served table
      { ent with
        nextRetransmit := time
        retries := (ent.retries + 1) % 2 ^ 6 }
      (log.append [transmission]) := by
  have hcopies : ∀ n, (log.append [transmission]).copies (some n) =
      log.copies (some n) := by
    intro n
    rw [EntryLog.copies_append, hchild]
    simp
  have hbits : (ent.retries + 1) % 2 ^ 6 = ent.retries + 1 := by
    unfold nwkMaxBroadcastRetries at hfew
    omega
  rw [hbits]
  exact
    { buf := hserved.buf
      dstAddr := hserved.dstAddr
      retries := by rw [EntryLog.copies_append, hserved.retries, if_pos hchild]
      few := hfew
      child := hserved.child
      reached := fun n hn hbefore => (hcopies n).trans (hserved.reached n hn hbefore)
      spared := fun n hn => (hcopies n).trans (hserved.spared n hn)
      addressed := by
        intro other hmem n hn
        rcases List.mem_append.mp hmem with hold | hnew
        · exact hserved.addressed other hold n hn
        · rw [List.mem_singleton.mp hnew, hchild] at hn
          contradiction
      later := hlater }

theorem Served.unicast (hserved : Served table ent log)
    (hiter : ent.neighborTableIterator = some n)
    (hother : table.address n ≠ log.srcAddr)
    (hnext : table.Next ent.dstAddr (n + 1) iter)
    (hchild : transmission.child = some n)
    (haddressed : transmission.packet.macDst = table.address n ∧
      transmission.packet.indirect = true)
    (acks : Finset ℕ) :
    Served table { ent with neighborTableIterator := iter, passiveAck := acks }
      (log.append [transmission]) where
  buf := hserved.buf
  dstAddr := hserved.dstAddr
  retries := by
    rw [EntryLog.copies_append, hchild, hserved.retries]
    simp
  few := hserved.few
  child := fun _ hk => (hnext.eligible hk).2
  reached := by
    intro k hreaches hbefore
    have hk : table.eligible ent.dstAddr k := hserved.dstAddr ▸ hreaches.1
    have hlt := (hnext.before_iff hk).mp hbefore
    rw [EntryLog.copies_append, hchild]
    by_cases hkn : n = k
    · subst hkn
      have hnone := hserved.spared n fun h => (h.2 n hiter).false
      rw [if_pos rfl, hnone]
    · have hold := hserved.reached k hreaches fun m hm => by
        rw [hiter] at hm
        obtain rfl := Option.some.inj hm
        omega
      rw [if_neg (by simpa using hkn), hold]
  spared := by
    intro k hk
    have hreaches : log.Reaches table n :=
      ⟨hserved.dstAddr ▸ hserved.child n hiter, hother⟩
    have hkn : n ≠ k := by
      rintro rfl
      exact hk ⟨hreaches,
        (hnext.before_iff (hserved.child n hiter)).mpr (Nat.lt_succ_self n)⟩
    have hold := hserved.spared k (by
      rintro ⟨hreachesk, hbefore⟩
      have helig : table.eligible ent.dstAddr k := hserved.dstAddr ▸ hreachesk.1
      have hlt := hbefore n hiter
      exact hk ⟨hreachesk, (hnext.before_iff helig).mpr (by omega)⟩)
    rw [EntryLog.copies_append, hchild, if_neg (by simpa using hkn), hold]
  addressed := by
    intro other hmem m hm
    rcases List.mem_append.mp hmem with hold | hnew
    · exact hserved.addressed other hold m hm
    · rw [List.mem_singleton.mp hnew] at hm ⊢
      obtain rfl := Option.some.inj (hchild.symm.trans hm)
      exact haddressed
  later := by
    intro hmax m hm k hk
    have hle := (hnext.eligible hm).1
    exact hserved.later hmax n hiter k (by omega)

end Served

end Zboss
