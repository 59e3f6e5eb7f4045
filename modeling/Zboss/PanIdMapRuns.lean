import Zboss.HeardParents

/-!
# Runs of the map of PAN identifiers

The map gives each extended identifier one reference, once and for all.  The
short identifier beside it is the one of the call which made the entry, also
after calls which give another one.
-/

namespace Zboss

open Function Option TransitionSystem

/-- The codes of `zb_address_set_pan_id`: `RET_OK`, `RET_ALREADY_EXISTS` and
`RET_OVERFLOW`. -/
inductive SetPanIdRet where
  | ok (ref : Fin 8)
  | alreadyExists (ref : Fin 8)
  | overflow

def SetPanIdRet.ref : SetPanIdRet → Option (Fin 8)
  | .ok ref => some ref
  | .alreadyExists ref => some ref
  | .overflow => none

structure SetPanIdCall where
  shortPanId : UInt16
  panId : ExtPanId

/-- `zb_address_set_pan_id` with its return code. -/
def setPanId (panMap : PanMap) (call : SetPanIdCall) : PanMap × SetPanIdRet :=
  match zbAddressGetPanIdRef panMap call.panId with
  | some ref => (panMap, .alreadyExists ref)
  | none =>
      match (panIdPlaces call.panId).reverse.find? (fun i => (panMap i).isNone) with
      | some ref => (update panMap ref (some ⟨call.shortPanId, call.panId⟩), .ok ref)
      | none => (panMap, .overflow)

/-- `zb_address_get_short_pan_id`; `none` where the source asserts. -/
def zbAddressGetShortPanId (panMap : PanMap) (ref : Fin 8) : Option UInt16 :=
  (panMap ref).map (·.shortPanid)

theorem mem_panIdPlaces (panId : ExtPanId) (i : Fin 8) :
    i ∈ panIdPlaces panId :=
  List.mem_map.mpr ⟨i - panIdHash panId, List.mem_finRange _, by omega⟩

theorem panMapHolds_iff {panMap : PanMap} {panId : ExtPanId} {i : Fin 8} :
    panMap.Holds panId i = true ↔ ∃ ent, panMap i = some ent ∧ ent.longPanid = panId := by
  rw [PanMap.Holds, any_eq_true]
  simp

theorem zbAddressGetPanIdRef_eq_some {panMap : PanMap} {panId : ExtPanId} {ref : Fin 8}
    (hget : zbAddressGetPanIdRef panMap panId = some ref) :
    ∃ ent, panMap ref = some ent ∧ ent.longPanid = panId :=
  panMapHolds_iff.mp (List.find?_some hget)

theorem zbAddressGetPanIdRef_eq_none {panMap : PanMap} {panId : ExtPanId}
    (hget : zbAddressGetPanIdRef panMap panId = none)
    {i : Fin 8} {ent : PanIdMapEnt} (hent : panMap i = some ent) :
    ent.longPanid ≠ panId := by
  intro heq
  exact List.find?_eq_none.mp hget i (mem_panIdPlaces panId i)
    (panMapHolds_iff.mpr ⟨ent, hent, heq⟩)

theorem panMap_update_eq_some {panMap : PanMap} {ref i : Fin 8} {new ent : PanIdMapEnt} :
    update panMap ref (some new) i = some ent ↔
      (i = ref ∧ new = ent) ∨ (i ≠ ref ∧ panMap i = some ent) := by
  by_cases hi : i = ref
  · rw [hi, update_self]
    simp
  · rw [update_of_ne hi]
    simp [hi]

inductive SetPanIdStep
    (panMap : PanMap) (call : SetPanIdCall) : PanMap → SetPanIdRet → Prop
  | ok (ref : Fin 8) (free : panMap ref = none)
      (absent : ∀ i ent, panMap i = some ent → ent.longPanid ≠ call.panId) :
      SetPanIdStep panMap call (update panMap ref (some ⟨call.shortPanId, call.panId⟩))
        (.ok ref)
  | alreadyExists (ref : Fin 8) (ent : PanIdMapEnt)
      (used : panMap ref = some ent) (same : ent.longPanid = call.panId) :
      SetPanIdStep panMap call panMap (.alreadyExists ref)
  | overflow (full : ∀ i, ∃ ent, panMap i = some ent ∧ ent.longPanid ≠ call.panId) :
      SetPanIdStep panMap call panMap .overflow

theorem setPanId_step (panMap : PanMap) (call : SetPanIdCall) :
    SetPanIdStep panMap call (setPanId panMap call).1 (setPanId panMap call).2 := by
  unfold setPanId
  cases hget : zbAddressGetPanIdRef panMap call.panId with
  | some ref =>
    obtain ⟨ent, hent, hsame⟩ := zbAddressGetPanIdRef_eq_some hget
    exact .alreadyExists ref ent hent hsame
  | none =>
    dsimp only
    split
    · rename_i ref hfind
      exact .ok ref (by simpa using List.find?_some hfind)
        fun i ent hent => zbAddressGetPanIdRef_eq_none hget hent
    · rename_i hfind
      rw [List.find?_eq_none] at hfind
      apply SetPanIdStep.overflow
      intro i
      have hused := hfind i (List.mem_reverse.mpr (mem_panIdPlaces call.panId i))
      cases hent : panMap i with
      | none => simp [hent] at hused
      | some ent => exact ⟨ent, rfl, zbAddressGetPanIdRef_eq_none hget hent⟩

structure PanIdRun where
  panMap : PanMap
  history : List (SetPanIdCall × SetPanIdRet)

def PanIdRun.start : PanIdRun := ⟨fun _ => none, []⟩

def panIdStep (run : PanIdRun) (call : SetPanIdCall) : Option PanIdRun :=
  let result := setPanId run.panMap call
  some ⟨result.1, (call, result.2) :: run.history⟩

/-- The short identifier of the most recent successful call for `panId`. -/
def lastGiven (history : List (SetPanIdCall × SetPanIdRet))
    (panId : ExtPanId) : Option UInt16 :=
  (history.find? (fun past => past.1.panId == panId && past.2.ref.isSome)).map
    (·.1.shortPanId)

structure PanIdMapLaw (run : PanIdRun) : Prop where
  refs : ∀ past ∈ run.history, ∀ past' ∈ run.history, ∀ ref ref',
    past.2.ref = some ref → past'.2.ref = some ref' →
    (ref = ref' ↔ past.1.panId = past'.1.panId)
  found : ∀ panId ref, zbAddressGetPanIdRef run.panMap panId = some ref ↔
    ∃ past ∈ run.history, past.1.panId = panId ∧ past.2.ref = some ref
  overflow : ∀ past ∈ run.history, past.2 = .overflow →
    ∀ i, ∃ ent, run.panMap i = some ent ∧ ent.longPanid ≠ past.1.panId
  short : ∀ panId ref, zbAddressGetPanIdRef run.panMap panId = some ref →
    zbAddressGetShortPanId run.panMap ref = lastGiven run.history panId

/-- The call gives the short identifier which an entry with its extended
identifier has. -/
def KeepsShortPanId (run : PanIdRun) (call : SetPanIdCall) : Prop :=
  ∀ i ent, run.panMap i = some ent → ent.longPanid = call.panId →
    ent.shortPanid = call.shortPanId

structure PanIdRefs (run : PanIdRun) : Prop where
  distinct : ∀ i j ent ent', run.panMap i = some ent →
    run.panMap j = some ent' → ent.longPanid = ent'.longPanid → i = j
  holds : ∀ past ∈ run.history, ∀ ref, past.2.ref = some ref →
    ∃ ent, run.panMap ref = some ent ∧ ent.longPanid = past.1.panId
  given : ∀ i ent, run.panMap i = some ent →
    ∃ past ∈ run.history, past.1.panId = ent.longPanid ∧ past.2.ref = some i
  overflow : ∀ past ∈ run.history, past.2 = .overflow →
    ∀ i, ∃ ent, run.panMap i = some ent ∧ ent.longPanid ≠ past.1.panId

def ShortsCurrent (run : PanIdRun) : Prop :=
  ∀ i ent, run.panMap i = some ent →
    lastGiven run.history ent.longPanid = some ent.shortPanid

theorem panIdStep_eq_some {run next : PanIdRun} {call : SetPanIdCall}
    (hstep : panIdStep run call = some next) :
    ∃ panMap ret, SetPanIdStep run.panMap call panMap ret ∧
      next = ⟨panMap, (call, ret) :: run.history⟩ :=
  ⟨_, _, setPanId_step run.panMap call, (some.inj hstep).symm⟩

theorem panIdRefs_start : PanIdRefs .start := by
  constructor <;> simp [PanIdRun.start]

theorem PanIdRefs.answered
    {run : PanIdRun} {call : SetPanIdCall} {panMap : PanMap} {ret : SetPanIdRet}
    (hrefs : PanIdRefs run)
    (hkept : ∀ i ent, run.panMap i = some ent → panMap i = some ent)
    (hnew : ∀ i ent, panMap i = some ent → run.panMap i = some ent ∨
      ret.ref = some i ∧ call.panId = ent.longPanid)
    (hdistinct : ∀ i j ent ent', panMap i = some ent → panMap j = some ent' →
      ent.longPanid = ent'.longPanid → i = j)
    (hholds : ∀ ref, ret.ref = some ref →
      ∃ ent, panMap ref = some ent ∧ ent.longPanid = call.panId)
    (hoverflow : ret = .overflow → ∀ i,
      ∃ ent, panMap i = some ent ∧ ent.longPanid ≠ call.panId) :
    PanIdRefs ⟨panMap, (call, ret) :: run.history⟩ where
  distinct := hdistinct
  holds := by
    rw [List.forall_mem_cons]
    refine ⟨hholds, ?_⟩
    intro past hpast ref href
    obtain ⟨ent, hent, hsame⟩ := hrefs.holds past hpast ref href
    exact ⟨ent, hkept ref ent hent, hsame⟩
  given := by
    intro i ent hent
    rcases hnew i ent hent with hold | ⟨href, hsame⟩
    · obtain ⟨past, hpast, hsame, href⟩ := hrefs.given i ent hold
      exact ⟨past, List.mem_cons_of_mem _ hpast, hsame, href⟩
    · exact ⟨_, List.mem_cons_self, hsame, href⟩
  overflow := by
    rw [List.forall_mem_cons]
    refine ⟨hoverflow, ?_⟩
    intro past hpast heq i
    obtain ⟨ent, hent, hother⟩ := hrefs.overflow past hpast heq i
    exact ⟨ent, hkept i ent hent, hother⟩

theorem PanIdRefs.next {run next : PanIdRun} {call : SetPanIdCall}
    (hrefs : PanIdRefs run) (hstep : panIdStep run call = some next) :
    PanIdRefs next := by
  obtain ⟨panMap, ret, hcases, rfl⟩ := panIdStep_eq_some hstep
  cases hcases with
  | ok ref free absent =>
    apply hrefs.answered
    case hkept =>
      intro i ent hent
      rw [update_of_ne, hent]
      rintro rfl
      simp [free] at hent
    case hnew =>
      intro i ent hent
      rcases panMap_update_eq_some.mp hent with ⟨rfl, rfl⟩ | ⟨-, hold⟩
      · exact .inr ⟨rfl, rfl⟩
      · exact .inl hold
    case hdistinct =>
      intro i j ent ent' hent hent' hsame
      rcases panMap_update_eq_some.mp hent with ⟨hi, rfl⟩ | ⟨-, hold⟩
      · rcases panMap_update_eq_some.mp hent' with ⟨hj, -⟩ | ⟨-, hold'⟩
        · rw [hi, hj]
        · exact absurd hsame.symm (absent j ent' hold')
      · rcases panMap_update_eq_some.mp hent' with ⟨-, rfl⟩ | ⟨-, hold'⟩
        · exact absurd hsame (absent i ent hold)
        · exact hrefs.distinct i j ent ent' hold hold' hsame
    case hholds =>
      intro r hr
      obtain rfl : ref = r := some.inj hr
      exact ⟨_, update_self _ _ _, rfl⟩
    case hoverflow =>
      intro heq
      cases heq
  | alreadyExists ref ent used same =>
    apply hrefs.answered (fun _ _ hent => hent) (fun _ _ hent => .inl hent) hrefs.distinct
    case hholds =>
      intro r hr
      obtain rfl : ref = r := some.inj hr
      exact ⟨ent, used, same⟩
    case hoverflow =>
      intro heq
      cases heq
  | overflow full =>
    apply hrefs.answered (fun _ _ hent => hent) (fun _ _ hent => .inl hent) hrefs.distinct
    case hholds =>
      intro r hr
      cases hr
    case hoverflow => exact fun _ => full

theorem PanIdRefs.zbAddressGetPanIdRef_iff
    {run : PanIdRun} (hrefs : PanIdRefs run) {panId : ExtPanId} {ref : Fin 8} :
    zbAddressGetPanIdRef run.panMap panId = some ref ↔
      ∃ ent, run.panMap ref = some ent ∧ ent.longPanid = panId := by
  constructor
  · exact zbAddressGetPanIdRef_eq_some
  · rintro ⟨ent, hent, hsame⟩
    cases hget : zbAddressGetPanIdRef run.panMap panId with
    | none => exact absurd hsame (zbAddressGetPanIdRef_eq_none hget hent)
    | some found =>
      obtain ⟨ent', hent', hsame'⟩ := zbAddressGetPanIdRef_eq_some hget
      rw [hrefs.distinct found ref ent' ent hent' hent (hsame'.trans hsame.symm)]

theorem PanIdRefs.law_iff {run : PanIdRun} (hrefs : PanIdRefs run) :
    PanIdMapLaw run ↔ ShortsCurrent run := by
  constructor
  · intro hlaw i ent hent
    have hget : zbAddressGetPanIdRef run.panMap ent.longPanid = some i :=
      hrefs.zbAddressGetPanIdRef_iff.mpr ⟨ent, hent, rfl⟩
    rw [← hlaw.short ent.longPanid i hget, zbAddressGetShortPanId, hent]
    rfl
  · intro hcurrent
    constructor
    · intro past hpast past' hpast' ref ref' href href'
      obtain ⟨ent, hent, hsame⟩ := hrefs.holds past hpast ref href
      obtain ⟨ent', hent', hsame'⟩ := hrefs.holds past' hpast' ref' href'
      constructor
      · rintro rfl
        rw [← hsame, ← hsame', some.inj (hent.symm.trans hent')]
      · intro heq
        exact hrefs.distinct ref ref' ent ent' hent hent'
          (hsame.trans (heq.trans hsame'.symm))
    · intro panId ref
      rw [hrefs.zbAddressGetPanIdRef_iff]
      constructor
      · rintro ⟨ent, hent, rfl⟩
        exact hrefs.given ref ent hent
      · rintro ⟨past, hpast, rfl, href⟩
        exact hrefs.holds past hpast ref href
    · exact hrefs.overflow
    · intro panId ref hget
      obtain ⟨ent, hent, rfl⟩ := hrefs.zbAddressGetPanIdRef_iff.mp hget
      rw [hcurrent ref ent hent, zbAddressGetShortPanId, hent]
      rfl

theorem lastGiven_cons_of_ne {past : SetPanIdCall × SetPanIdRet}
    {history : List (SetPanIdCall × SetPanIdRet)} {panId : ExtPanId}
    (hother : past.1.panId ≠ panId) :
    lastGiven (past :: history) panId = lastGiven history panId := by
  rw [lastGiven, lastGiven, List.find?_cons_of_neg]
  simp [hother]

theorem lastGiven_cons_self {call : SetPanIdCall} {ret : SetPanIdRet} {ref : Fin 8}
    {history : List (SetPanIdCall × SetPanIdRet)}
    (href : ret.ref = some ref) :
    lastGiven ((call, ret) :: history) call.panId = some call.shortPanId := by
  rw [lastGiven, List.find?_cons_of_pos]
  · rfl
  · simp [href]

theorem shortsCurrent_next_iff {run next : PanIdRun} {call : SetPanIdCall}
    (hcurrent : ShortsCurrent run)
    (hstep : panIdStep run call = some next) :
    ShortsCurrent next ↔ KeepsShortPanId run call := by
  obtain ⟨panMap, ret, hcases, rfl⟩ := panIdStep_eq_some hstep
  cases hcases with
  | ok ref free absent =>
    constructor
    · intro _ i ent hent hsame
      exact absurd hsame (absent i ent hent)
    · intro _ i ent hent
      rcases panMap_update_eq_some.mp hent with ⟨-, rfl⟩ | ⟨-, hold⟩
      · exact lastGiven_cons_self rfl
      · rw [lastGiven_cons_of_ne (absent i ent hold).symm]
        exact hcurrent i ent hold
  | alreadyExists ref ent used same =>
    constructor
    · intro hnext i ent' hent' hsame'
      have hlast := hnext i ent' hent'
      rw [hsame', lastGiven_cons_self rfl, some.injEq] at hlast
      exact hlast.symm
    · intro hkeeps i ent' hent'
      by_cases hsame' : ent'.longPanid = call.panId
      · rw [hsame', lastGiven_cons_self rfl, hkeeps i ent' hent' hsame']
      · rw [lastGiven_cons_of_ne (Ne.symm hsame')]
        exact hcurrent i ent' hent'
  | overflow full =>
    constructor
    · intro _ i ent hent hsame
      obtain ⟨ent', hent', hother⟩ := full i
      rw [hent, some.injEq] at hent'
      exact absurd (hent' ▸ hsame) hother
    · intro _ i ent hent
      obtain ⟨ent', hent', hother⟩ := full i
      rw [hent, some.injEq] at hent'
      subst hent'
      rw [lastGiven_cons_of_ne hother.symm]
      exact hcurrent i ent hent

/-- The map is what it is to be in every state of a run exactly when no call
gives a known extended identifier another short one. -/
theorem everyState_panIdMapLaw_iff (calls : List SetPanIdCall) :
    EveryState panIdStep PanIdMapLaw .start calls ↔
      AlongRun panIdStep KeepsShortPanId .start calls := by
  have hlaw : PanIdMapLaw .start :=
    panIdRefs_start.law_iff.mpr (by intro i ent hent; cases hent)
  have hexact : ∀ run call, PanIdMapLaw run → PanIdRefs run →
      ((∀ next, panIdStep run call = some next → PanIdMapLaw next) ↔
        KeepsShortPanId run call) := by
    intro run call hlaw hrefs
    have hcurrent := hrefs.law_iff.mp hlaw
    constructor
    · intro hnext
      obtain ⟨next, hstep⟩ : ∃ next, panIdStep run call = some next := ⟨_, rfl⟩
      exact (shortsCurrent_next_iff hcurrent hstep).mp
        ((hrefs.next hstep).law_iff.mp (hnext next hstep))
    · intro hkeeps next hstep
      exact (hrefs.next hstep).law_iff.mpr
        ((shortsCurrent_next_iff hcurrent hstep).mpr hkeeps)
  exact everyState_iff_alongRun hexact
    (fun _ _ _ _ hrefs _ hstep => hrefs.next hstep) hlaw panIdRefs_start

def changedShortPanId : List SetPanIdCall :=
  [⟨0x1111, 0x0A0B0C0D0E0F0102⟩, ⟨0x2222, 0x0A0B0C0D0E0F0102⟩]

/-- The map still has the identifier of the first call. -/
theorem not_everyState_changedShortPanId :
    ¬ ∀ calls, EveryState panIdStep PanIdMapLaw .start calls := by
  intro hall
  obtain ⟨last, hrun⟩ : ∃ last,
      run panIdStep .start changedShortPanId = some last := ⟨_, rfl⟩
  have hlaw := (hall changedShortPanId).last hrun
  obtain rfl := some.inj hrun
  have hshort := hlaw.short 0x0A0B0C0D0E0F0102
    (panIdHash 0x0A0B0C0D0E0F0102 + 7) (by decide)
  exact absurd hshort (by decide)

end Zboss
