import Mathlib.Algebra.Group.Nat.Defs
import Rustcast.Core.Lts
import Rustcast.Core.OrderedMap

/-!
# Privacy mode on Windows

The controller of `ccd_display.rs` counts the viewers of every connection. With the first viewer it
leaves only the virtual display active, and with the last one it puts the saved topology back and locks
the workstation. Three things can disagree after a failure: the flag `privacy_applied`, the snapshot
file and the topology that is in force.
-/

namespace Rustcast.Host

open OrderedMap

/-! ## Topologies -/

structure DisplayPath where
  sourceAdapter : Nat
  sourceId : Nat
  targetAdapter : Nat
  targetId : Nat
  /-- `DISPLAYCONFIG_PATH_ACTIVE` -/
  active : Bool
  deriving DecidableEq

structure PrivacyTarget where
  name : String
  adapterLuid : Option Nat
  deriving DecidableEq

inductive ConfigOp where
  | privacy
  | restore
  deriving DecidableEq

inductive CcdError where
  | validateRejected (op : ConfigOp) (status : Int)
  | applyFailed (op : ConfigOp) (status : Int)
  | verifyMismatch (op : ConfigOp) (detail : String)
  | topology (message : String)
  | snapshotIo (action source : String)
  | snapshotInvalid (message : String)
  | lockWorkstation (source : String)
  deriving DecidableEq

/-- The paths, the snapshot file and the calls of `LockWorkStation`. -/
structure CcdWorld where
  topology : List DisplayPath
  snapshot : Option (List DisplayPath)
  lockRequests : Nat
  deriving DecidableEq

/-- The three times at which the topology is queried. -/
inductive QueryStage where
  /-- before anything is changed -/
  | before
  /-- the active paths, to verify -/
  | active
  /-- all paths, to verify -/
  | all
  deriving DecidableEq

/-- What the operating system answers during one operation, and which of its calls take effect. -/
structure CcdOutcome where
  /-- the error text of a query that fails -/
  queryError : QueryStage → Option String
  /-- the status of `DisplayConfigGetDeviceInfo` for a source -/
  nameStatus : QueryStage → Nat → Nat → Int
  /-- action and error of a write that fails -/
  writeError : Option (String × String)
  /-- a write that fails has replaced the file -/
  written : Bool
  validateStatus : Int
  applyStatus : Int
  /-- the topology after `SDC_APPLY`, from the supplied paths and the topology before -/
  setDisplayConfig : List DisplayPath → List DisplayPath → List DisplayPath
  /-- the snapshot cannot be read, or is not valid -/
  readError : Option CcdError
  removeError : Option String
  /-- a removal that fails has removed the file -/
  removed : Bool
  lockError : Option String

variable {stage : QueryStage} {paths : List DisplayPath} {r : Except CcdError Unit}
  {connections : OrderedMap Nat Nat} {token count : Nat} {state : PrivacyState} {world : CcdWorld}

variable {expectedName : String} {luid : Nat}

section

variable (names : Nat → Nat → String) (o : CcdOutcome) (target : PrivacyTarget)

def InForce (topology : List DisplayPath) : Prop :=
  (∃ p ∈ topology, p.active = true ∧ names p.sourceAdapter p.sourceId = target.name) ∧
    ∀ p ∈ topology, p.active = true → names p.sourceAdapter p.sourceId = target.name

instance (target : PrivacyTarget) (topology : List DisplayPath) :
    Decidable (InForce names target topology) :=
  inferInstanceAs (Decidable (_ ∧ _))

/-! ## Calls of the operating system -/

/-- `ACTIVE_QUERY_FLAGS` give the active paths only. -/
def queryConfig (stage : QueryStage) (w : CcdWorld) : Except CcdError (List DisplayPath) :=
  match o.queryError stage with
  | some message => .error (.topology message)
  | none =>
    match stage with
    | .all => .ok w.topology
    | .before | .active => .ok (w.topology.filter (·.active))

def sourceName (stage : QueryStage) (adapter id : Nat) : Except CcdError String :=
  if o.nameStatus stage adapter id ≠ 0 then
    .error (.topology ("DisplayConfigGetDeviceInfo source " ++ toString id ++ " failed: " ++
      toString (o.nameStatus stage adapter id)))
  else .ok (names adapter id)

/-- The paths whose source has the name, with their places and adapters. -/
def sourceMatches (stage : QueryStage) (expectedName : String) :
    Nat → List DisplayPath → Except CcdError (List (Nat × Nat))
  | _, [] => .ok []
  | index, p :: paths =>
    match sourceName names o stage p.sourceAdapter p.sourceId with
    | .error e => .error e
    | .ok name =>
      match sourceMatches stage expectedName (index + 1) paths with
      | .error e => .error e
      | .ok rest => .ok (if name = expectedName then (index, p.sourceAdapter) :: rest else rest)

/-- A number as `{:016X}` writes it. -/
def hex016 (n : Nat) : String :=
  String.ofList ((List.leftpad 16 '0' (Nat.toDigits 16 n)).map Char.toUpper)

def findSourcePath (stage : QueryStage) (paths : List DisplayPath) (dxgiAdapterLuid : Nat)
    (expectedName : String) : Except CcdError (Nat × Nat) :=
  match sourceMatches names o stage expectedName 0 paths with
  | .error e => .error e
  | .ok [] => .error (.topology ("CCD path never appeared for source " ++ expectedName))
  | .ok [found] => .ok found
  | .ok found =>
    match found.filter (fun m => decide (m.2 = dxgiAdapterLuid)) with
    | [only] => .ok only
    | _ =>
      .error (.topology ("CCD source " ++ expectedName ++ " is ambiguous across " ++
        toString found.length ++ " paths (DXGI adapter LUID 0x" ++ hex016 dxgiAdapterLuid ++ ")"))

def writeSnapshot (paths : List DisplayPath) (w : CcdWorld) : Except CcdError Unit × CcdWorld :=
  match o.writeError with
  | some (action, source) =>
    (.error (.snapshotIo action source), if o.written then { w with snapshot := some paths } else w)
  | none => (.ok (), { w with snapshot := some paths })

def readSnapshot (w : CcdWorld) : Except CcdError (List DisplayPath) :=
  match o.readError, w.snapshot with
  | some e, _ => .error e
  | none, none => .error (.snapshotIo "read privacy topology snapshot" "not found")
  | none, some paths => .ok paths

def removeFile (w : CcdWorld) : Except CcdError Unit × CcdWorld :=
  match o.removeError with
  | some source =>
    (.error (.snapshotIo "remove privacy topology snapshot" source),
      if o.removed then { w with snapshot := none } else w)
  | none => (.ok (), { w with snapshot := none })

/-- `SDC_VALIDATE` changes nothing; `SDC_APPLY` may, whatever its status. -/
def setDisplayConfig (config : List DisplayPath) (op : ConfigOp) (w : CcdWorld) :
    Except CcdError Unit × CcdWorld :=
  if o.validateStatus ≠ 0 then (.error (.validateRejected op o.validateStatus), w)
  else
    let w' := { w with topology := o.setDisplayConfig config w.topology }
    if o.applyStatus ≠ 0 then (.error (.applyFailed op o.applyStatus), w') else (.ok (), w')

/-! ## Applying and restoring -/

/-- Every active source is the one of the virtual display. -/
def checkSources (target : PrivacyTarget) : List DisplayPath → Except CcdError Unit
  | [] => .ok ()
  | p :: paths =>
    if p.active then
      match sourceName names o .all p.sourceAdapter p.sourceId with
      | .error e => .error e
      | .ok name =>
        if name ≠ target.name then
          .error (.verifyMismatch .privacy "a physical source remains active")
        else checkSources target paths
    else checkSources target paths

/-- The part of `apply_and_verify_privacy` after the change. -/
def verifyPrivacy (adapterLuid : Nat) (w : CcdWorld) : Except CcdError Unit :=
  match queryConfig o .active w with
  | .error e => .error e
  | .ok active =>
    match findSourcePath names o .active active adapterLuid target.name with
    | .error e => .error e
    | .ok (virtualIndex, _) =>
      if (active[virtualIndex]?.map (·.active)).getD false = false then
        .error (.verifyMismatch .privacy "virtual path is inactive")
      else
        match queryConfig o .all w with
        | .error e => .error e
        | .ok allPaths => checkSources names o target allPaths

def applyAndVerifyPrivacy (config : List DisplayPath) (target : PrivacyTarget) (adapterLuid : Nat)
    (w : CcdWorld) : Except CcdError Unit × CcdWorld :=
  match setDisplayConfig o config .privacy w with
  | (.error e, w') => (.error e, w')
  | (.ok (), w') => (verifyPrivacy names o target adapterLuid w', w')

/-- The virtual path alone is active. -/
def privacyConfig (virtualIndex : Nat) (paths : List DisplayPath) : List DisplayPath :=
  paths.zipIdx.map fun p => { p.1 with active := decide (p.2 = virtualIndex) }

/-- The calls of the operating system may have any outcome. -/
def applyPrivacy (w : CcdWorld) : Except CcdError Unit × CcdWorld :=
  match queryConfig o .before w with
  | .error e => (.error e, w)
  | .ok config =>
    match target.adapterLuid with
    | none => (.error (.topology ("DXGI output " ++ target.name ++ " has no adapter LUID")), w)
    | some adapterLuid =>
      match findSourcePath names o .before config adapterLuid target.name with
      | .error e => (.error e, w)
      | .ok (virtualIndex, _) =>
        match writeSnapshot o config w with
        | (.error e, w') => (.error e, w')
        | (.ok (), w') =>
          applyAndVerifyPrivacy names o (privacyConfig virtualIndex config) target adapterLuid w'

/-- The same source and target, and active. -/
def samePath (expected actual : DisplayPath) : Bool :=
  actual.active && decide (actual.sourceAdapter = expected.sourceAdapter) &&
    decide (actual.sourceId = expected.sourceId) &&
    decide (actual.targetAdapter = expected.targetAdapter) &&
    decide (actual.targetId = expected.targetId)

def restoreSnapshot (w : CcdWorld) : Except CcdError Unit × CcdWorld :=
  match readSnapshot o w with
  | .error e => (.error e, w)
  | .ok config =>
    match setDisplayConfig o config .restore w with
    | (.error e, w') => (.error e, w')
    | (.ok (), w') =>
      match queryConfig o .active w' with
      | .error e => (.error e, w')
      | .ok active =>
        if config.all (fun expected => !expected.active || active.any (samePath expected)) then
          removeFile o w'
        else (.error (.verifyMismatch .restore "a saved active path is missing"), w')

def lockWorkstation (w : CcdWorld) : Except CcdError Unit × CcdWorld :=
  (match o.lockError with
    | some source => .error (.lockWorkstation source)
    | none => .ok (),
    { w with lockRequests := w.lockRequests + 1 })

/-! ## The controller -/

structure PrivacyState where
  target : PrivacyTarget
  lockOnDisconnect : Bool
  privacyApplied : Bool
  nextConnection : Nat
  /-- the viewers of each connection -/
  connections : OrderedMap Nat Nat

def PrivacyState.new (lockOnDisconnect : Bool) : PrivacyState where
  target
  lockOnDisconnect
  privacyApplied := false
  nextConnection := 1
  connections := .empty

def viewed (connections : OrderedMap Nat Nat) : Bool := connections.values.any (fun n => decide (0 < n))

def restoreAndLock (s : PrivacyState) (w : CcdWorld) : Except CcdError Unit × PrivacyState × CcdWorld :=
  match restoreSnapshot o w with
  | (.error e, w') => (.error e, s, w')
  | (.ok (), w') =>
    if s.lockOnDisconnect then
      let locked := lockWorkstation o w'
      (locked.1, { s with privacyApplied := false }, locked.2)
    else (.ok (), { s with privacyApplied := false }, w')

/-- The token of a new connection, and the counter after it. -/
def PrivacyState.connection (s : PrivacyState) : Nat × PrivacyState :=
  (s.nextConnection,
    { s with
      nextConnection := max ((s.nextConnection + 1) % 2 ^ 64) 1
      connections := s.connections.set s.nextConnection 0 })

def updateConnection (token count : Nat) (s : PrivacyState) (w : CcdWorld) :
    Except CcdError Unit × PrivacyState × CcdWorld :=
  let connections := s.connections.set token count
  if !viewed s.connections && viewed connections && !s.privacyApplied then
    match applyPrivacy names o s.target w with
    | (.error (.validateRejected .privacy status), w') =>
      -- nothing was changed, so the snapshot is stale
      (.error (.validateRejected .privacy status),
        { s with privacyApplied := false, connections := connections.set token 0 }, (removeFile o w').2)
    | (.error e, w') =>
      -- the temporary topology may be there, so a disconnect has to try and restore
      if w'.snapshot.isSome then (.error e, { s with privacyApplied := true, connections }, w')
      else (.error e, { s with connections := connections.set token 0 }, w')
    | (.ok (), w') => (.ok (), { s with privacyApplied := true, connections }, w')
  else if viewed s.connections && !viewed connections && s.privacyApplied then
    restoreAndLock o { s with connections } w
  else (.ok (), { s with connections }, w)

def disconnect (token : Nat) (s : PrivacyState) (w : CcdWorld) :
    Except CcdError Unit × PrivacyState × CcdWorld :=
  let connections := s.connections.delete token
  if viewed s.connections && !viewed connections && s.privacyApplied then
    restoreAndLock o { s with connections } w
  else (.ok (), { s with connections }, w)

/-! ## What the calls make sure of -/

variable {names o} {target : PrivacyTarget} {w w' : CcdWorld}

theorem sourceName_ok {adapter id : Nat} {name : String}
    (h : sourceName names o stage adapter id = .ok name) : names adapter id = name := by
  unfold sourceName at h
  split at h
  · cases h
  · exact Except.ok.inj h

theorem sourceMatches_ok {index : Nat} {found : List (Nat × Nat)}
    (h : sourceMatches names o stage expectedName index paths = .ok found) (hne : found ≠ []) :
    ∃ p ∈ paths, names p.sourceAdapter p.sourceId = expectedName := by
  induction paths generalizing index found with
  | nil =>
    cases h
    exact absurd rfl hne
  | cons p paths ih =>
    rw [sourceMatches] at h
    split at h
    · cases h
    next name hname =>
      split at h
      · cases h
      next rest hrest =>
        cases h
        by_cases hsame : name = expectedName
        · exact ⟨p, List.mem_cons_self, (sourceName_ok hname).trans hsame⟩
        · rw [if_neg hsame] at hne
          obtain ⟨q, hq, hqname⟩ := ih hrest hne
          exact ⟨q, List.mem_cons_of_mem _ hq, hqname⟩

theorem findSourcePath_ok {found : Nat × Nat}
    (h : findSourcePath names o stage paths luid expectedName = .ok found) :
    ∃ p ∈ paths, names p.sourceAdapter p.sourceId = expectedName := by
  unfold findSourcePath at h
  split at h
  · cases h
  · cases h
  next only honly => exact sourceMatches_ok honly (List.cons_ne_nil _ _)
  next all hnil _ hall =>
    refine sourceMatches_ok hall ?_
    rintro rfl
    exact hnil rfl

theorem checkSources_ok (h : checkSources names o target paths = .ok ()) :
    ∀ p ∈ paths, p.active = true → names p.sourceAdapter p.sourceId = target.name := by
  induction paths with
  | nil => simp
  | cons p paths ih =>
    rw [checkSources] at h
    intro q hq hactive
    split at h
    next hp =>
      split at h
      · cases h
      next name hname =>
        split at h
        · cases h
        next hsame =>
          rcases List.mem_cons.mp hq with rfl | hrest
          · rw [sourceName_ok hname]
            exact not_not.mp hsame
          · exact ih h q hrest hactive
    next hp =>
      rcases List.mem_cons.mp hq with rfl | hrest
      · exact absurd hactive hp
      · exact ih h q hrest hactive

theorem queryConfig_ok (h : queryConfig o stage w = .ok paths) :
    paths = if stage = .all then w.topology else w.topology.filter (·.active) := by
  unfold queryConfig at h
  cases herr : o.queryError stage with
  | some message => simp [herr] at h
  | none =>
    rw [herr] at h
    cases stage <;> exact (Except.ok.inj h).symm

/-- The verification looks at the virtual path and at every active one. -/
theorem verifyPrivacy_ok (h : verifyPrivacy names o target luid w = .ok ()) :
    InForce names target w.topology := by
  unfold verifyPrivacy at h
  split at h
  · cases h
  next active hactive =>
    split at h
    · cases h
    next virtualIndex _ hfound =>
      split at h
      · cases h
      · split at h
        · cases h
        next allPaths hall =>
          obtain ⟨p, hp, hname⟩ := findSourcePath_ok hfound
          rw [queryConfig_ok hactive, if_neg (by decide), List.mem_filter] at hp
          refine ⟨⟨p, hp.1, hp.2, hname⟩, ?_⟩
          have hsources := checkSources_ok h
          rw [queryConfig_ok hall] at hsources
          exact hsources

/-- Privacy that is applied without an error is in force. -/
theorem applyPrivacy_inForce (h : applyPrivacy names o target w = (.ok (), w')) :
    InForce names target w'.topology := by
  unfold applyPrivacy at h
  split at h
  · cases h
  · split at h
    · cases h
    next adapterLuid hluid =>
      split at h
      · cases h
      · split at h
        · cases h
        next w₁ _ =>
          unfold applyAndVerifyPrivacy at h
          split at h
          · cases h
          next w₂ _ =>
            obtain ⟨hverified, rfl⟩ := Prod.mk.inj h
            exact verifyPrivacy_ok hverified

theorem lockRequests_setDisplayConfig {config : List DisplayPath} {op : ConfigOp}
    (h : setDisplayConfig o config op w = (r, w')) : w'.lockRequests = w.lockRequests := by
  unfold setDisplayConfig at h
  split at h
  · cases h
    rfl
  · split at h <;> cases h <;> rfl

theorem lockRequests_removeFile (h : removeFile o w = (r, w')) : w'.lockRequests = w.lockRequests := by
  unfold removeFile at h
  split at h
  · cases h
    split <;> rfl
  · cases h
    rfl

theorem lockRequests_restoreSnapshot (h : restoreSnapshot o w = (r, w')) :
    w'.lockRequests = w.lockRequests := by
  unfold restoreSnapshot at h
  split at h
  · cases h
    rfl
  · split at h
    next hset =>
      cases h
      exact lockRequests_setDisplayConfig hset
    next hset =>
      have hsame := lockRequests_setDisplayConfig hset
      split at h
      · cases h
        exact hsame
      · split at h
        · exact (lockRequests_removeFile h).trans hsame
        · cases h
          exact hsame

/-! ## Viewers -/

theorem viewed_iff :
    viewed connections = true ↔ ∃ token count, connections.get? token = some count ∧ 0 < count := by
  simp only [viewed, values, List.any_map, List.any_eq_true, Function.comp_apply, decide_eq_true_eq]
  constructor
  · rintro ⟨⟨token, count⟩, hmem, hpos⟩
    exact ⟨token, count, get?_of_mem hmem, hpos⟩
  · rintro ⟨token, count, hget, hpos⟩
    exact ⟨(token, count), mem_of_get? hget, hpos⟩

theorem viewed_of_viewed_set_zero (h : viewed ((connections.set token count).set token 0) = true) :
    viewed connections = true := by
  obtain ⟨other, n, hget, hpos⟩ := viewed_iff.1 h
  by_cases hother : other = token
  · rw [get?_set, if_pos hother] at hget
    cases hget
    omega
  · rw [get?_set, if_neg hother, get?_set, if_neg hother] at hget
    exact viewed_iff.2 ⟨other, n, hget, hpos⟩

/-! ## What the operations do -/

inductive Restored (o : CcdOutcome) (s : PrivacyState) (w : CcdWorld) :
    Except CcdError Unit → PrivacyState → CcdWorld → Prop where
  /-- the restore fails, and nothing is locked -/
  | failed {e : CcdError} {w' : CcdWorld} (hrestore : restoreSnapshot o w = (.error e, w')) :
      Restored o s w (.error e) s w'
  | locked {r : Except CcdError Unit} {w' w'' : CcdWorld} (hrestore : restoreSnapshot o w = (.ok (), w'))
      (hlock : s.lockOnDisconnect = true) (hrequest : w''.lockRequests = w'.lockRequests + 1) :
      Restored o s w r { s with privacyApplied := false } w''
  | unlocked {w' : CcdWorld} (hrestore : restoreSnapshot o w = (.ok (), w'))
      (hlock : s.lockOnDisconnect = false) :
      Restored o s w (.ok ()) { s with privacyApplied := false } w'

theorem restoreAndLock_cases (o : CcdOutcome) (s : PrivacyState) (w : CcdWorld) :
    Restored o s w (restoreAndLock o s w).1 (restoreAndLock o s w).2.1 (restoreAndLock o s w).2.2 := by
  unfold restoreAndLock
  split
  next e w' hrestore => exact .failed hrestore
  next w' hrestore =>
    by_cases hlock : s.lockOnDisconnect = true
    · rw [if_pos hlock]
      exact .locked hrestore hlock rfl
    · rw [if_neg hlock]
      exact .unlocked hrestore (Bool.not_eq_true _ ▸ hlock)

inductive Updated (names : Nat → Nat → String) (o : CcdOutcome) (token count : Nat) (s : PrivacyState)
    (w : CcdWorld) : Except CcdError Unit → PrivacyState → CcdWorld → Prop where
  | applied {w' : CcdWorld} (hbefore : viewed s.connections = false)
      (happly : applyPrivacy names o s.target w = (.ok (), w')) :
      Updated names o token count s w (.ok ())
        { s with privacyApplied := true, connections := s.connections.set token count } w'
  /-- the error leaves a snapshot -/
  | suspected {e : CcdError} {w' : CcdWorld} (hbefore : viewed s.connections = false)
      (hafter : viewed (s.connections.set token count) = true) (happlied : s.privacyApplied = false)
      (happly : applyPrivacy names o s.target w = (.error e, w'))
      (hrejected : ∀ status, e ≠ .validateRejected .privacy status)
      (hsnapshot : w'.snapshot.isSome = true) :
      Updated names o token count s w (.error e)
        { s with privacyApplied := true, connections := s.connections.set token count } w'
  /-- the error is before any change -/
  | refused {e : CcdError} {w' : CcdWorld} (hbefore : viewed s.connections = false)
      (happlied : s.privacyApplied = false) :
      Updated names o token count s w (.error e)
        { s with connections := (s.connections.set token count).set token 0 } w'
  | restored {r : Except CcdError Unit} {s' : PrivacyState} {w' : CcdWorld}
      (hbefore : viewed s.connections = true)
      (hafter : viewed (s.connections.set token count) = false) (happlied : s.privacyApplied = true)
      (hrestored : Restored o { s with connections := s.connections.set token count } w r s' w') :
      Updated names o token count s w r s' w'
  /-- the viewers change, but not whether there are some, or the flag is as it should be -/
  | counted (hfirst : viewed s.connections = false → viewed (s.connections.set token count) = true →
        s.privacyApplied = true)
      (hlast : viewed s.connections = true → viewed (s.connections.set token count) = false →
        s.privacyApplied = false) :
      Updated names o token count s w (.ok ())
        { s with connections := s.connections.set token count } w

theorem updateConnection_cases (names : Nat → Nat → String) (o : CcdOutcome) (token count : Nat)
    (s : PrivacyState) (w : CcdWorld) :
    Updated names o token count s w (updateConnection names o token count s w).1
      (updateConnection names o token count s w).2.1 (updateConnection names o token count s w).2.2 := by
  unfold updateConnection
  dsimp only
  split
  next hfirst =>
    simp only [Bool.and_eq_true, Bool.not_eq_true'] at hfirst
    obtain ⟨⟨hbefore, hafter⟩, happlied⟩ := hfirst
    split
    next status w' happly =>
      rw [← happlied]
      exact .refused hbefore happlied
    next e w' hrejected happly =>
      cases hsnapshot : w'.snapshot.isSome with
      | true =>
        refine .suspected hbefore hafter happlied happly ?_ hsnapshot
        rintro status rfl
        exact hrejected status rfl
      | false => exact .refused hbefore happlied
    next w' happly => exact .applied hbefore happly
  next hfirst =>
    split
    next hlast =>
      simp only [Bool.and_eq_true, Bool.not_eq_true'] at hlast
      exact .restored hlast.1.1 hlast.1.2 hlast.2 (restoreAndLock_cases _ _ _)
    next hlast =>
      refine .counted ?_ ?_
      · intro hbefore hafter
        simpa [hbefore, hafter] using hfirst
      · intro hbefore hafter
        simpa [hbefore, hafter] using hlast

inductive Disconnected (o : CcdOutcome) (token : Nat) (s : PrivacyState) (w : CcdWorld) :
    PrivacyState → CcdWorld → Prop where
  | restored {r : Except CcdError Unit} {s' : PrivacyState} {w' : CcdWorld}
      (hbefore : viewed s.connections = true)
      (hafter : viewed (s.connections.delete token) = false) (happlied : s.privacyApplied = true)
      (hrestored : Restored o { s with connections := s.connections.delete token } w r s' w') :
      Disconnected o token s w s' w'
  | counted (hlast : viewed s.connections = true → viewed (s.connections.delete token) = false →
        s.privacyApplied = false) :
      Disconnected o token s w { s with connections := s.connections.delete token } w

theorem disconnect_cases (o : CcdOutcome) (token : Nat) (s : PrivacyState) (w : CcdWorld) :
    Disconnected o token s w (disconnect o token s w).2.1 (disconnect o token s w).2.2 := by
  unfold disconnect
  dsimp only
  split
  next hlast =>
    simp only [Bool.and_eq_true, Bool.not_eq_true'] at hlast
    exact .restored hlast.1.1 hlast.1.2 hlast.2 (restoreAndLock_cases _ _ _)
  next hlast =>
    refine .counted ?_
    intro hbefore hafter
    simpa [hbefore, hafter] using hlast

end

/-! ## Runs of the controller -/

/-- The controller with the connections there are, and those with an acknowledged viewer. -/
structure PrivacySystem where
  state : PrivacyState
  world : CcdWorld
  live : List Nat
  /-- a positive count has been acknowledged, and no zero or disconnect has followed -/
  acknowledged : List Nat

inductive PrivacyEvent where
  | connection
  | update (token count : Nat) (o : CcdOutcome)
  | disconnect (token : Nat) (o : CcdOutcome)

namespace PrivacySystem

/-- At startup, with any topology and whatever file `recover_snapshot` could not remove. -/
def start (target : PrivacyTarget) (lockOnDisconnect : Bool) (world : CcdWorld) : PrivacySystem where
  state := .new target lockOnDisconnect
  world
  live := []
  acknowledged := []

def acknowledge (token count : Nat) (result : Except CcdError Unit) (acknowledged : List Nat) : List Nat :=
  if count = 0 then acknowledged.filter (· ≠ token)
  else if result.isOk then token :: acknowledged
  else acknowledged

section

variable (names : Nat → Nat → String) (s : PrivacySystem)

def step : PrivacyEvent → Option PrivacySystem
  | .connection =>
    some { s with state := s.state.connection.2, live := s.state.connection.1 :: s.live }
  | .update token count o =>
    if token ∈ s.live then
      let r := updateConnection names o token count s.state s.world
      some { s with
        state := r.2.1, world := r.2.2, acknowledged := acknowledge token count r.1 s.acknowledged }
    else none
  | .disconnect token o =>
    if token ∈ s.live then
      let r := Host.disconnect o token s.state s.world
      some {
        state := r.2.1, world := r.2.2, live := s.live.erase token
        acknowledged := s.acknowledged.filter (· ≠ token) }
    else none

/-- A connection with an acknowledged viewer has privacy. -/
def Private : Prop :=
  ∀ _token ∈ s.acknowledged, InForce names s.state.target s.world.topology

instance : Decidable (s.Private names) :=
  inferInstanceAs (Decidable (∀ _token ∈ s.acknowledged, InForce names s.state.target s.world.topology))

/-- When the last viewer leaves, a lock is requested. -/
def LocksBehind (e : PrivacyEvent) : Prop :=
  ∀ s' ∈ s.step names e, viewed s.state.connections = true → viewed s'.state.connections = false →
    s.state.privacyApplied = true → s.state.lockOnDisconnect = true →
    s'.world.lockRequests = s.world.lockRequests + 1

instance (e : PrivacyEvent) : Decidable (s.LocksBehind names e) := by
  unfold LocksBehind
  infer_instance

/-- A restore succeeds, or it leaves privacy in force where no lock is wanted. -/
def RestoreSteady (names : Nat → Nat → String) (o : CcdOutcome) (s : PrivacySystem) : Prop :=
  (restoreSnapshot o s.world).1.isOk = true ∨
    s.state.lockOnDisconnect = false ∧ InForce names s.state.target (restoreSnapshot o s.world).2.topology

/-- The errors after which privacy is recorded as applied. -/
def recordedOnError : Except CcdError Unit × CcdWorld → Bool
  | (.ok _, _) | (.error (.validateRejected .privacy _), _) => false
  | (.error _, world) => world.snapshot.isSome

/-- Privacy that is recorded after an error is in force. -/
def ApplySteady (names : Nat → Nat → String) (o : CcdOutcome) (s : PrivacySystem) : Prop :=
  recordedOnError (applyPrivacy names o s.state.target s.world) = true →
    InForce names s.state.target (applyPrivacy names o s.state.target s.world).2.topology

/-- No failure leaves the topology otherwise than the flag says, and the counter of connections has not
come round to one that is still there. -/
def Steady : PrivacyEvent → Prop
  | .connection => s.state.nextConnection ∉ s.live
  | .update token count o =>
    (viewed s.state.connections = false → viewed (s.state.connections.set token count) = true →
      s.state.privacyApplied = false → s.ApplySteady names o) ∧
    (viewed s.state.connections = true → viewed (s.state.connections.set token count) = false →
      s.state.privacyApplied = true → s.RestoreSteady names o)
  | .disconnect token o =>
    viewed s.state.connections = true → viewed (s.state.connections.delete token) = false →
      s.state.privacyApplied = true → s.RestoreSteady names o

instance : ∀ e, Decidable (s.Steady names e)
  | .connection => inferInstanceAs (Decidable (_ ∉ _))
  | .update _ _ o =>
    have : Decidable (s.ApplySteady names o) := inferInstanceAs (Decidable (_ → _))
    have : Decidable (s.RestoreSteady names o) := inferInstanceAs (Decidable (_ ∨ _))
    inferInstanceAs (Decidable (_ ∧ _))
  | .disconnect _ o =>
    have : Decidable (s.RestoreSteady names o) := inferInstanceAs (Decidable (_ ∨ _))
    inferInstanceAs (Decidable (_ → _))

inductive Moves : PrivacyEvent → PrivacySystem → Prop where
  | connection :
      Moves .connection
        { s with state := s.state.connection.2, live := s.state.connection.1 :: s.live }
  | update {token count : Nat} {o : CcdOutcome} {r : Except CcdError Unit} {state : PrivacyState}
      {world : CcdWorld} (hlive : token ∈ s.live)
      (hupdated : Updated names o token count s.state s.world r state world) :
      Moves (.update token count o)
        { s with state, world, acknowledged := acknowledge token count r s.acknowledged }
  | disconnect {token : Nat} {o : CcdOutcome} {state : PrivacyState} {world : CcdWorld}
      (hgone : Disconnected o token s.state s.world state world) :
      Moves (.disconnect token o)
        { state, world, live := s.live.erase token, acknowledged := s.acknowledged.filter (· ≠ token) }

end

variable {names : Nat → Nat → String} {s s' : PrivacySystem} {e : PrivacyEvent}

theorem step_cases (hstep : s.step names e = some s') : Moves names s e s' := by
  cases e with
  | connection =>
    cases hstep
    exact .connection
  | update token count o =>
    simp only [step] at hstep
    split at hstep
    next hlive =>
      cases hstep
      exact .update hlive (updateConnection_cases _ _ _ _ _ _)
    · cases hstep
  | disconnect token o =>
    simp only [step] at hstep
    split at hstep
    · cases hstep
      exact .disconnect (disconnect_cases _ _ _ _)
    · cases hstep

/-! ## The invariant -/

/-- The flag, the counts and the topology agree. -/
structure Inv (names : Nat → Nat → String) (s : PrivacySystem) : Prop where
  applied_inForce : s.state.privacyApplied = true → InForce names s.state.target s.world.topology
  viewed_applied : viewed s.state.connections = true → s.state.privacyApplied = true
  acknowledged_pos : ∀ token ∈ s.acknowledged, ∃ count, s.state.connections.get? token = some count ∧
    0 < count
  keys_live : ∀ token count, s.state.connections.get? token = some count → token ∈ s.live

theorem inv_start (target : PrivacyTarget) (lockOnDisconnect : Bool) (world : CcdWorld) :
    (start target lockOnDisconnect world).Inv names where
  applied_inForce h := by cases h
  viewed_applied h := by cases h
  acknowledged_pos := by simp [start]
  keys_live token count h := by cases h

theorem Inv.viewed_of_acknowledged (h : s.Inv names) (htoken : token ∈ s.acknowledged) :
    viewed s.state.connections = true := by
  obtain ⟨count, hget, hpos⟩ := h.acknowledged_pos token htoken
  exact viewed_iff.2 ⟨token, count, hget, hpos⟩

theorem Inv.private (h : s.Inv names) : s.Private names := by
  intro token htoken
  exact h.applied_inForce (h.viewed_applied (h.viewed_of_acknowledged htoken))

/-- After a steady restore the flag is down or privacy is still in force, and the lock that is wanted is
requested. -/
theorem restored_steady {o : CcdOutcome} {state' : PrivacyState} {world' : CcdWorld}
    (hrestored : Restored o state world r state' world')
    (hsteady : (restoreSnapshot o world).1.isOk = true ∨ state.lockOnDisconnect = false ∧
      InForce names state.target (restoreSnapshot o world).2.topology) :
    state'.connections = state.connections ∧
      (state'.privacyApplied = true → InForce names state'.target world'.topology) ∧
      (state.lockOnDisconnect = true → world'.lockRequests = world.lockRequests + 1) := by
  cases hrestored with
  | failed hrestore =>
    rw [hrestore] at hsteady
    rcases hsteady with hok | ⟨hunlocked, hforce⟩
    · cases hok
    · exact ⟨rfl, fun _ => hforce, fun hlock => absurd (hlock.symm.trans hunlocked) (by decide)⟩
  | locked hrestore _ hrequest =>
    refine ⟨rfl, fun h => (by cases h), fun _ => ?_⟩
    rw [hrequest, lockRequests_restoreSnapshot hrestore]
  | unlocked _ hunlocked =>
    exact ⟨rfl, fun h => (by cases h), fun hlock => absurd (hlock.symm.trans hunlocked) (by decide)⟩

theorem keys_set {live : List Nat} (h : ∀ t n, connections.get? t = some n → t ∈ live)
    (htoken : token ∈ live) : ∀ t n, (connections.set token count).get? t = some n → t ∈ live := by
  intro t n hget
  rw [get?_set] at hget
  split at hget
  next hsame =>
    rw [hsame]
    exact htoken
  · exact h t n hget

section

variable (h : s.Inv names)

include h

/-- A new connection takes nobody's viewers. -/
theorem Inv.get?_connection (hfresh : s.state.nextConnection ∉ s.live)
    (hget : s.state.connections.get? token = some count) :
    s.state.connection.2.connections.get? token = some count := by
  have hne : token ≠ s.state.nextConnection := by
    rintro rfl
    exact hfresh (h.keys_live _ count hget)
  rw [PrivacyState.connection, get?_set, if_neg hne]
  exact hget

theorem inv_connection (hfresh : s.state.nextConnection ∉ s.live) :
    Inv names { s with state := s.state.connection.2, live := s.state.connection.1 :: s.live } where
  applied_inForce := h.applied_inForce
  viewed_applied := by
    intro hviewed
    apply h.viewed_applied
    obtain ⟨token, count, hget, hpos⟩ := viewed_iff.1 hviewed
    rw [PrivacyState.connection, get?_set] at hget
    split at hget
    · cases hget
      omega
    · exact viewed_iff.2 ⟨token, count, hget, hpos⟩
  acknowledged_pos := by
    intro token htoken
    obtain ⟨count, hget, hpos⟩ := h.acknowledged_pos token htoken
    exact ⟨count, h.get?_connection hfresh hget, hpos⟩
  keys_live := keys_set (fun t n ht => List.mem_cons_of_mem _ (h.keys_live t n ht)) List.mem_cons_self

/-- Who is acknowledged after an update has viewers, if the counts are the updated ones. -/
theorem acknowledged_set :
    ∀ t ∈ acknowledge token count r s.acknowledged,
      ∃ n, (s.state.connections.set token count).get? t = some n ∧ 0 < n := by
  intro t ht
  unfold acknowledge at ht
  by_cases hzero : count = 0
  · rw [if_pos hzero, List.mem_filter, decide_eq_true_eq] at ht
    rw [get?_set, if_neg ht.2]
    exact h.acknowledged_pos t ht.1
  · by_cases hsame : t = token
    · rw [get?_set, if_pos hsame]
      exact ⟨count, rfl, by omega⟩
    · rw [get?_set, if_neg hsame]
      rw [if_neg hzero] at ht
      split at ht
      · exact h.acknowledged_pos t ((List.mem_cons.mp ht).resolve_left hsame)
      · exact h.acknowledged_pos t ht

/-- Nobody is acknowledged by a refused first update. -/
theorem acknowledged_refused (hbefore : viewed s.state.connections = false) {e : CcdError} :
    ∀ t, t ∉ acknowledge token count (.error e) s.acknowledged := by
  intro t ht
  have hold : t ∈ s.acknowledged := by
    unfold acknowledge at ht
    split at ht
    · exact (List.mem_filter.mp ht).1
    · exact ht
  rw [h.viewed_of_acknowledged hold] at hbefore
  cases hbefore

theorem inv_update {o : CcdOutcome} (hlive : token ∈ s.live)
    (hsteady : s.Steady names (.update token count o))
    (hupdated : Updated names o token count s.state s.world r state world) :
    Inv names { s with state, world, acknowledged := acknowledge token count r s.acknowledged } := by
  cases hupdated with
  | applied hbefore happly =>
    exact ⟨fun _ => applyPrivacy_inForce happly, fun _ => rfl, acknowledged_set h,
      keys_set h.keys_live hlive⟩
  | suspected hbefore hafter happlied happly hrejected hsnapshot =>
    refine ⟨fun _ => ?_, fun _ => rfl, acknowledged_set h, keys_set h.keys_live hlive⟩
    have hforce := hsteady.1 hbefore hafter happlied
    rw [ApplySteady, happly] at hforce
    apply hforce
    unfold recordedOnError
    split
    next hok => cases hok
    next status _ heq =>
      cases heq
      exact absurd rfl (hrejected status)
    next heq =>
      cases heq
      exact hsnapshot
  | refused hbefore happlied =>
    refine ⟨fun hflag => ?_, fun hviewed => ?_, fun t ht => ?_, keys_set (keys_set h.keys_live hlive) hlive⟩
    · rw [happlied] at hflag
      cases hflag
    · rw [viewed_of_viewed_set_zero hviewed] at hbefore
      cases hbefore
    · exact absurd ht (acknowledged_refused h hbefore t)
  | restored hbefore hafter happlied hrestored =>
    obtain ⟨hconn, hforce, -⟩ := restored_steady hrestored (hsteady.2 hbefore hafter happlied)
    refine ⟨hforce, fun hviewed => ?_, ?_, ?_⟩
    · rw [hconn, hafter] at hviewed
      cases hviewed
    · rw [hconn]
      exact acknowledged_set h
    · rw [hconn]
      exact keys_set h.keys_live hlive
  | counted hfirst hlast =>
    refine ⟨h.applied_inForce, fun hviewed => ?_, acknowledged_set h, keys_set h.keys_live hlive⟩
    cases hbefore : viewed s.state.connections with
    | true => exact h.viewed_applied hbefore
    | false => exact hfirst hbefore hviewed

theorem inv_disconnect {o : CcdOutcome} (hsteady : s.Steady names (.disconnect token o))
    (hgone : Disconnected o token s.state s.world state world) :
    Inv names {
      state, world, live := s.live.erase token, acknowledged := s.acknowledged.filter (· ≠ token) } := by
  have hpos : ∀ t ∈ s.acknowledged.filter (· ≠ token),
      ∃ n, (s.state.connections.delete token).get? t = some n ∧ 0 < n := by
    intro t ht
    rw [List.mem_filter, decide_eq_true_eq] at ht
    rw [get?_delete, if_neg ht.2]
    exact h.acknowledged_pos t ht.1
  have hlive : ∀ t n, (s.state.connections.delete token).get? t = some n → t ∈ s.live.erase token := by
    intro t n hget
    rw [get?_delete] at hget
    split at hget
    · cases hget
    next hother => exact (List.mem_erase_of_ne hother).mpr (h.keys_live t n hget)
  cases hgone with
  | restored hbefore hafter happlied hrestored =>
    obtain ⟨hconn, hforce, -⟩ := restored_steady hrestored (hsteady hbefore hafter happlied)
    refine ⟨hforce, fun hviewed => ?_, ?_, ?_⟩
    · rw [hconn, hafter] at hviewed
      cases hviewed
    · rw [hconn]
      exact hpos
    · rw [hconn]
      exact hlive
  | counted hlast =>
    refine ⟨h.applied_inForce, fun hviewed => ?_, hpos, hlive⟩
    apply h.viewed_applied
    obtain ⟨t, n, hget, hn⟩ := viewed_iff.1 hviewed
    rw [get?_delete] at hget
    split at hget
    · cases hget
    · exact viewed_iff.2 ⟨t, n, hget, hn⟩

theorem step_inv (hsteady : s.Steady names e) (hstep : s.step names e = some s') : s'.Inv names := by
  cases step_cases hstep with
  | connection => exact inv_connection h hsteady
  | update hlive hupdated => exact inv_update h hlive hsteady hupdated
  | disconnect hgone => exact inv_disconnect h hsteady hgone

end

/-! ## Locking -/

section

variable {o : CcdOutcome} (hviewed : viewed s.state.connections = true)
  (hleft : viewed state.connections = false) (happlied : s.state.privacyApplied = true)
  (hlock : s.state.lockOnDisconnect = true)

include hviewed hleft happlied hlock

theorem lockRequests_update (hsteady : s.Steady names (.update token count o))
    (hupdated : Updated names o token count s.state s.world r state world) :
    world.lockRequests = s.world.lockRequests + 1 := by
  cases hupdated with
  | applied hbefore | suspected hbefore | refused hbefore =>
    exact absurd (hviewed.symm.trans hbefore) (by decide)
  | restored hbefore hafter _ hrestored =>
    exact (restored_steady hrestored (hsteady.2 hbefore hafter happlied)).2.2 hlock
  | counted hfirst hlast => exact absurd (happlied.symm.trans (hlast hviewed hleft)) (by decide)

theorem lockRequests_disconnect (hsteady : s.Steady names (.disconnect token o))
    (hgone : Disconnected o token s.state s.world state world) :
    world.lockRequests = s.world.lockRequests + 1 := by
  cases hgone with
  | restored hbefore hafter _ hrestored =>
    exact (restored_steady hrestored (hsteady hbefore hafter happlied)).2.2 hlock
  | counted hlast => exact absurd (happlied.symm.trans (hlast hviewed hleft)) (by decide)

end

theorem locksBehind (h : s.Inv names) (hsteady : s.Steady names e) : s.LocksBehind names e := by
  intro s' hstep hbefore hafter happlied hlock
  cases step_cases hstep with
  | connection =>
    obtain ⟨token, count, hget, hpos⟩ := viewed_iff.1 hbefore
    have hstill : viewed s.state.connection.2.connections = true :=
      viewed_iff.2 ⟨token, count, h.get?_connection hsteady hget, hpos⟩
    exact absurd (hstill.symm.trans hafter) (by decide)
  | update _ hupdated => exact lockRequests_update hbefore hafter happlied hlock hsteady hupdated
  | disconnect hgone => exact lockRequests_disconnect hbefore hafter happlied hlock hsteady hgone

end PrivacySystem

open PrivacySystem

/-- Privacy is in force for acknowledged viewers, and the workstation is locked behind the last one,
in runs where failures leave the topology that the flag says. -/
theorem privacy_kept (names : Nat → Nat → String) (target : PrivacyTarget) (lockOnDisconnect : Bool)
    (world : CcdWorld) (es : List PrivacyEvent)
    (hsteady : Lts.Along (step names) (Steady names) (start target lockOnDisconnect world) es) :
    Lts.Throughout (step names) (Private names) (start target lockOnDisconnect world) es ∧
      Lts.Along (step names) (LocksBehind names) (start target lockOnDisconnect world) es := by
  constructor
  · have hinv : Lts.Throughout (step names) (Inv names) (start target lockOnDisconnect world) es :=
      Lts.throughout_of_along (fun _ _ _ => step_inv)
        (inv_start target lockOnDisconnect world) hsteady
    exact hinv.mono fun _ h => h.private
  · exact Lts.along_of_along (fun _ _ _ => step_inv)
      (fun _ _ => locksBehind) (inv_start target lockOnDisconnect world) hsteady

def deskNames (adapter id : Nat) : String := if adapter = 1 ∧ id = 0 then "panel" else "virtual"

def deskTarget : PrivacyTarget := ⟨"virtual", some 2⟩

def deskWorld : CcdWorld where
  topology := [⟨1, 0, 1, 0, true⟩, ⟨2, 0, 2, 0, true⟩]
  snapshot := none
  lockRequests := 0

/-- The supplied paths are taken over, and the others are inactive. -/
def takesEffect (supplied current : List DisplayPath) : List DisplayPath :=
  supplied ++ (current.filter fun p => !supplied.any fun q => decide (q = { p with active := q.active })).map
    ({ · with active := false })

def allFine : CcdOutcome where
  queryError _ := none
  nameStatus _ _ _ := 0
  writeError := none
  written := true
  validateStatus := 0
  applyStatus := 0
  setDisplayConfig := takesEffect
  readError := none
  removeError := none
  removed := true
  lockError := none

theorem privacy_kept_one_viewer :
    let es : List PrivacyEvent := [.connection, .update 1 1 allFine, .disconnect 1 allFine]
    let s := start deskTarget true deskWorld
    (Lts.Throughout (step deskNames) (Private deskNames) s es ∧
      Lts.Along (step deskNames) (LocksBehind deskNames) s es) ∧
    (Lts.run (step deskNames) s (es.take 2)).map (·.acknowledged) = some [1] ∧
      (Lts.run (step deskNames) s es).map (·.world.lockRequests) = some 1 :=
  ⟨privacy_kept _ _ _ _ _ (by decide +kernel), by decide +kernel, by decide +kernel⟩

/-- `SDC_APPLY` fails and changes nothing: the next count is acknowledged with the panel active. A restore
takes effect and its file is not removed: nothing is locked. -/
theorem privacy_lost :
    (¬ ∀ (names : Nat → Nat → String) (target : PrivacyTarget) (lockOnDisconnect : Bool)
        (world : CcdWorld) (es : List PrivacyEvent),
      Lts.Throughout (step names) (Private names) (start target lockOnDisconnect world) es) ∧
    ¬ ∀ (names : Nat → Nat → String) (target : PrivacyTarget) (lockOnDisconnect : Bool)
        (world : CcdWorld) (es : List PrivacyEvent),
      Lts.Along (step names) (LocksBehind names) (start target lockOnDisconnect world) es := by
  constructor
  · intro hclaim
    have hrun := hclaim deskNames deskTarget true deskWorld
      [.connection, .update 1 1 { allFine with applyStatus := 31, setDisplayConfig := fun _ c => c },
        .update 1 2 allFine]
    revert hrun
    decide +kernel
  · intro hclaim
    have hrun := hclaim deskNames deskTarget true deskWorld
      [.connection, .update 1 1 allFine,
        .disconnect 1 { allFine with removeError := some "access denied", removed := false }]
    revert hrun
    decide +kernel

end Rustcast.Host
