import Zboss.ShortAddressIndexRuns

/-!
# The APS duplicate filter

`aps_dups.c`, for the build without `ZB_LIMITED_FEATURES`.  The counter of the
last packet and its age are fields of the entries of the address table; they
are kept apart here, since the operations on addresses do not touch them.
-/

namespace Zboss

instance neZero_four : NeZero 4 := ⟨by decide⟩

structure ApsDup where
  counter : UInt8
  clock : Fin 4
  deriving DecidableEq

structure ApsDupGlobals where
  addr : AddrGlobals
  dup : ℕ → ApsDup
  dupsAlarmRunning : Bool

namespace ApsDupGlobals

def zeroed : ApsDupGlobals where
  addr := .zeroed
  dup _ := ⟨0, 0⟩
  dupsAlarmRunning := false

def Running (g : ApsDupGlobals) (ref : ℕ) : Prop := (g.dup ref).clock ≠ 0

instance (g : ApsDupGlobals) (ref : ℕ) : Decidable (g.Running ref) :=
  inferInstanceAs (Decidable ((g.dup ref).clock ≠ 0))

def apsCheckDups (g : ApsDupGlobals) (srcAddr : ℕ) (apsCounter : UInt8) :
    Option (ApsDupGlobals × Bool) := do
  let (addr, ret) ← zbAddressByShort g.addr srcAddr true false
  match ret with
  | .error _ => some ({ g with addr }, false)
  | .ok addrRef =>
      let ent := g.dup addrRef
      let isDup := ent.clock ≠ 0 ∧ ent.counter = apsCounter
      some
        ({ addr
           dup := Function.update g.dup addrRef ⟨apsCounter, 3⟩
           dupsAlarmRunning := true },
          isDup)

/-- The loop of `zb_aps_check_timer_cb` from the entry `i` on, with `n` used
entries behind it. -/
def dupScan (addr : AddrGlobals) (rounds i n : ℕ) (dup : ℕ → ApsDup)
    (running : Bool) : Option ((ℕ → ApsDup) × Bool) :=
  if n < addr.nElements.toNat then
    match rounds with
    | 0 => none
    | rounds + 1 =>
        if (addr.addrMap i).used then
          let ent := dup i
          if ent.clock ≠ 0 then
            let ent := { ent with clock := ent.clock - 1 }
            dupScan addr rounds (i + 1) (n + 1) (Function.update dup i ent)
              (running || decide (ent.clock ≠ 0))
          else dupScan addr rounds (i + 1) (n + 1) dup running
        else dupScan addr rounds (i + 1) n dup running
  else some (dup, running)

def zbApsCheckTimerCb (g : ApsDupGlobals) : Option ApsDupGlobals :=
  (dupScan g.addr ieeeAddrTableSize 0 0 g.dup false).map
    fun (dup, running) => { g with dup, dupsAlarmRunning := running }

end ApsDupGlobals

structure ApsPacket (D : Type) where
  device : D
  srcAddr : ℕ
  apsCounter : UInt8
  deriving DecidableEq

/-- `leave` looks up a short address and deletes the entry it finds, as the
handlers for leaving devices do. -/
inductive ApsDupEvent (D : Type) where
  | packet (packet : ApsPacket D)
  | tick
  | address (call : AddressCall)
  | leave (shortAddress : ℕ)

/-- `verdicts` are the packets with what `aps_check_dups` returned, `holder` is
the device whose packet an entry holds, `freed` says whether the entry has been
free since then. -/
structure ApsDupRun (D : Type) where
  g : ApsDupGlobals
  verdicts : List (ApsPacket D × Bool)
  holder : ℕ → Option D
  freed : ℕ → Bool

namespace ApsDupRun

variable {D : Type}

def start : ApsDupRun D where
  g := .zeroed
  verdicts := []
  holder _ := none
  freed _ := true

def setAddr (run : ApsDupRun D) (addr : AddrGlobals) : ApsDupRun D :=
  { run with
    g := { run.g with addr }
    freed := fun ref => run.freed ref || !(addr.addrMap ref).used }

/-- The entry which `aps_check_dups` finds or creates for a source. -/
def entryFor (g : ApsDupGlobals) (srcAddr : ℕ) : Option ℕ :=
  (shortSearch g.addr srcAddr).or (freeEntry g.addr none)

def receive (run : ApsDupRun D) (packet : ApsPacket D) :
    Option (ApsDupRun D) :=
  (run.g.apsCheckDups packet.srcAddr packet.apsCounter).map fun (g, isDup) =>
      { g
        verdicts := run.verdicts ++ [(packet, isDup)]
        holder :=
          match entryFor run.g packet.srcAddr with
          | some ref => Function.update run.holder ref (some packet.device)
          | none => run.holder
        freed :=
          match entryFor run.g packet.srcAddr with
          | some ref => Function.update run.freed ref false
          | none => run.freed }

def leave (run : ApsDupRun D) (shortAddress : ℕ) : Option (ApsDupRun D) := do
  let (addr, ret) ← zbAddressByShort run.g.addr shortAddress false false
  match ret with
  | .error _ => some (run.setAddr addr)
  | .ok addrRef => some (run.setAddr (zbAddressDelete addr addrRef))

def step (run : ApsDupRun D) : ApsDupEvent D → Option (ApsDupRun D)
  | .packet packet => run.receive packet
  | .tick => run.g.zbApsCheckTimerCb.map fun g => { run with g }
  | .address call => (call.apply run.g.addr).map run.setAddr
  | .leave shortAddress => run.leave shortAddress

end ApsDupRun

end Zboss
