import Mathlib.Algebra.Group.Nat.Defs
import Mathlib.Data.List.Sort
import RedcodeIm.Database.Models
import RedcodeIm.Lib.Text

/-!
# Hot updates

Which patch a client is offered, and where a client comes to rest that installs whatever it is
offered.

* `findActiveHotUpdates` — the active patches of a base version, the latest released one first.
* `latestHotUpdate` — the first of them, other than the client's own patch, whose rollout the
  client falls into.
* `HotUpdates.hot_updates_settle` — the offers come to an end, and never lead back, exactly when
  the client falls into the rollouts of one patch only, which its own does not outrank.

The handler passes over the client's own patch and over no other.  So a client that falls into two
rollouts is sent from the one patch to the other and back again, for ever.
-/

namespace RedcodeIm

/-- `Platform` of `database/models.rs`. -/
inductive AppPlatform where
  | windows
  | macos
  | ios
  | android
  | linux
  deriving DecidableEq

def AppPlatform.fromStr (s : String) : Option AppPlatform :=
  match Text.toAsciiLowercase s with
  | "windows" => some .windows
  | "macos" => some .macos
  | "ios" => some .ios
  | "android" => some .android
  | "linux" => some .linux
  | _ => none

/-- A row of `app_versions`. -/
structure AppVersion where
  id : Uuid
  platform : AppPlatform
  version : String
  channel : String
  isActive : Bool
  deriving DecidableEq

/-- A row of `hot_updates`. -/
structure HotUpdate where
  id : Uuid
  platform : AppPlatform
  appVersionId : Uuid
  patchVersion : String
  channel : String
  downloadKey : String
  downloadUrl : Option String
  fileSize : Option ℤ
  checksum : Option String
  signature : Option String
  rolloutPercentage : ℤ
  mandatory : Bool
  description : Option String
  isActive : Bool
  releasedAt : Option Timestamp
  createdAt : Timestamp
  updatedAt : Timestamp
  deriving DecidableEq

structure VersionDb where
  versions : List AppVersion
  hotUpdates : List HotUpdate

/-- `p` comes strictly before `p'` in `ORDER BY released_at DESC NULLS LAST, created_at DESC`. -/
def HotUpdate.outranks (p p' : HotUpdate) : Bool :=
  match p.releasedAt, p'.releasedAt with
  | some released, some released' =>
    released' < released || released = released' && p'.createdAt < p.createdAt
  | some _, none => true
  | none, some _ => false
  | none, none => p'.createdAt < p.createdAt

/-- `find_active_hot_updates`. -/
def VersionDb.findActiveHotUpdates (db : VersionDb) (platform : AppPlatform)
    (channel currentVersion : String) : List HotUpdate :=
  (db.hotUpdates.filter fun hu =>
    hu.platform = platform && hu.channel = channel && hu.isActive &&
      db.versions.any fun av =>
        av.id = hu.appVersionId && av.version = currentVersion && av.isActive).insertionSort
    fun p p' => p'.outranks p = false

/-- The sixteen bytes of a UUID. -/
def uuidBytes (u : Uuid) : List UInt8 :=
  (List.range 16).reverse.map fun i => UInt8.ofNat (u / 256 ^ i)

/-- What `DefaultHasher` finishes with, once the slices have been written to it. -/
abbrev Hasher : Type := List (List UInt8) → UInt64

/-- `is_rollout_hit`. -/
def isRolloutHit (finish : Hasher) (patch : HotUpdate) (clientId : Option String) : Bool :=
  let pct := max 0 (min patch.rolloutPercentage 100)
  if 100 ≤ pct then true
  else if pct ≤ 0 then false
  else
    match clientId with
    | some id => ((finish [id.toUTF8.toList, uuidBytes patch.id] % 100).toNat : ℤ) < pct
    | none => false

/-- `HotUpdateQuery`. -/
structure HotUpdateQuery where
  platform : String
  channel : String := "stable"
  currentVersion : String
  currentPatchVersion : Option String := none
  clientId : Option String := none
  deriving DecidableEq

/-- `HotUpdateResponse`, with the row in the place of its rendering. -/
structure HotUpdateResponse where
  hasUpdate : Bool
  currentPatchVersion : Option String
  patch : Option HotUpdate
  deriving DecidableEq

/-- The checks of a query, and the patches that they let it choose from. -/
def HotUpdateQuery.patches (db : VersionDb) (q : HotUpdateQuery) :
    Except AppError (List HotUpdate) :=
  match AppPlatform.fromStr (Text.trim q.platform) with
  | none => .error (.validationError ("不支持的平台: " ++ q.platform ++
      "。支持的平台: windows, macos, ios, android, linux"))
  | some platform =>
    let channel := Text.trim q.channel
    if channel = "" then .error (.validationError "channel 不能为空")
    else if Text.trim q.currentVersion = "" then
      .error (.validationError "current_version 不能为空")
    else .ok (db.findActiveHotUpdates platform channel (Text.trim q.currentVersion))

/-- `latest_hot_update`. -/
def latestHotUpdate (finish : Hasher) (db : VersionDb) (q : HotUpdateQuery) :
    Except AppError HotUpdateResponse :=
  match q.patches db with
  | .error e => .error e
  | .ok patches =>
    let selected := patches.find? fun patch =>
      if q.currentPatchVersion = some patch.patchVersion then false
      else isRolloutHit finish patch q.clientId
    .ok { hasUpdate := selected.isSome
          currentPatchVersion := q.currentPatchVersion
          patch := selected }

namespace HotUpdates

/-! ## A client that installs whatever it is offered -/

variable (finish : Hasher) (db : VersionDb)

/-- The patch that the answer to a query offers. -/
def offer (q : HotUpdateQuery) : Option HotUpdate :=
  match latestHotUpdate finish db q with
  | .ok response => response.patch
  | .error _ => none

/-- The client's next query: the patch it was offered is now the one it runs. -/
def install (q : HotUpdateQuery) : HotUpdateQuery :=
  match offer finish db q with
  | some patch => { q with currentPatchVersion := some patch.patchVersion }
  | none => q

/-- The active patches of the client's base version; none, if its query is refused. -/
def active (q : HotUpdateQuery) : List HotUpdate :=
  match q.patches db with
  | .ok patches => patches
  | .error _ => []

/-- The active patches whose rollout the client falls into. -/
def hits (q : HotUpdateQuery) : List HotUpdate :=
  (active db q).filter fun patch => isRolloutHit finish patch q.clientId

/-- The offers end, and none of them ranks behind the patch that the client runs. -/
structure Settles (q : HotUpdateQuery) : Prop where
  ends : ∃ n, offer finish db ((install finish db)^[n] q) = none
  forward : ∀ n patch, offer finish db ((install finish db)^[n] q) = some patch →
    ∀ current ∈ active db q,
      ((install finish db)^[n] q).currentPatchVersion = some current.patchVersion →
        ¬ current.outranks patch

/-- The client falls into the rollouts of one patch version only, and the patch that it runs does
not outrank the first of them. -/
structure OneHit (q : HotUpdateQuery) : Prop where
  same : ∀ patch ∈ hits finish db q, ∀ patch' ∈ hits finish db q,
    patch.patchVersion = patch'.patchVersion
  ahead : ∀ patch ∈ (hits finish db q).head?, ∀ current ∈ active db q,
    q.currentPatchVersion = some current.patchVersion →
      current.patchVersion ≠ patch.patchVersion → ¬ current.outranks patch

variable {finish db} {q : HotUpdateQuery} {patch : HotUpdate}

/-! ## One offer -/

theorem offer_eq : offer finish db q =
    (hits finish db q).find? fun patch => q.currentPatchVersion ≠ some patch.patchVersion := by
  unfold offer latestHotUpdate hits active
  cases q.patches db with
  | error e => rfl
  | ok patches =>
    show patches.find? _ = _
    rw [List.find?_filter]
    congr 1
    funext patch
    by_cases h : q.currentPatchVersion = some patch.patchVersion
    · simp [h]
    · simp [h]

theorem offer_hit (h : offer finish db q = some patch) :
    patch ∈ hits finish db q ∧ q.currentPatchVersion ≠ some patch.patchVersion := by
  rw [offer_eq] at h
  exact ⟨List.mem_of_find?_eq_some h, by simpa using List.find?_some h⟩

theorem offer_eq_none : offer finish db q = none ↔
    ∀ patch ∈ hits finish db q, q.currentPatchVersion = some patch.patchVersion := by
  rw [offer_eq, List.find?_eq_none]
  simp

theorem install_of_some (h : offer finish db q = some patch) :
    install finish db q = { q with currentPatchVersion := some patch.patchVersion } := by
  unfold install
  rw [h]

theorem install_of_none (h : offer finish db q = none) : install finish db q = q := by
  unfold install
  rw [h]

theorem install_eq (q : HotUpdateQuery) :
    ∃ version, install finish db q = { q with currentPatchVersion := version } := by
  cases h : offer finish db q with
  | some patch => exact ⟨_, install_of_some h⟩
  | none => exact ⟨q.currentPatchVersion, install_of_none h⟩

theorem iterate_install_eq (n : ℕ) :
    ∃ version, (install finish db)^[n] q = { q with currentPatchVersion := version } := by
  induction n with
  | zero => exact ⟨q.currentPatchVersion, rfl⟩
  | succ n ih =>
    obtain ⟨version, hn⟩ := ih
    obtain ⟨version', hsucc⟩ : ∃ version',
        install finish db { q with currentPatchVersion := version } =
        { q with currentPatchVersion := version' } := install_eq _
    refine ⟨version', ?_⟩
    rw [Function.iterate_succ_apply', hn, hsucc]

theorem hits_install : hits finish db (install finish db q) = hits finish db q := by
  obtain ⟨version, h⟩ : ∃ version,
      install finish db q = { q with currentPatchVersion := version } :=
    install_eq q
  simp only [h, hits, active, HotUpdateQuery.patches]

theorem hits_iterate (n : ℕ) : hits finish db ((install finish db)^[n] q) = hits finish db q := by
  obtain ⟨version, h⟩ : ∃ version, (install finish db)^[n] q =
      { q with currentPatchVersion := version } := iterate_install_eq n
  simp only [h, hits, active, HotUpdateQuery.patches]

/-! ## The order of the patches -/

theorem outranks_trans {p p' p'' : HotUpdate} (h : p'.outranks p = false)
    (h' : p''.outranks p' = false) : p''.outranks p = false := by
  unfold HotUpdate.outranks at *
  cases hr : p.releasedAt <;> cases hr' : p'.releasedAt <;> cases hr'' : p''.releasedAt <;>
    simp_all <;> grind

theorem outranks_asymm {p p' : HotUpdate} (h : p.outranks p' = true) : p'.outranks p = false := by
  unfold HotUpdate.outranks at *
  cases hr : p.releasedAt <;> cases hr' : p'.releasedAt <;> simp_all <;> grind

theorem outranks_total (p p' : HotUpdate) : p'.outranks p = false ∨ p.outranks p' = false := by
  cases h : p'.outranks p with
  | false => exact .inl rfl
  | true => exact .inr (outranks_asymm h)

instance : Std.Total fun p p' : HotUpdate => p'.outranks p = false := ⟨outranks_total⟩

instance : IsTrans HotUpdate fun p p' => p'.outranks p = false := ⟨fun _ _ _ => outranks_trans⟩

theorem pairwise_active : (active db q).Pairwise fun p p' => p'.outranks p = false := by
  unfold active HotUpdateQuery.patches
  cases AppPlatform.fromStr (Text.trim q.platform) with
  | none => exact List.Pairwise.nil
  | some platform =>
    by_cases hc : Text.trim q.channel = ""
    · simp [hc]
    · by_cases hv : Text.trim q.currentVersion = ""
      · simp [hc, hv]
      · simp only [hc, hv, if_false]
        exact List.pairwise_insertionSort _ _

/-- **A client without a patch** is offered the latest one whose rollout it falls into. -/
theorem first_offer_latest (hq : q.currentPatchVersion = none)
    (h : offer finish db q = some patch) :
    ∀ other ∈ hits finish db q, ¬ other.outranks patch := by
  obtain ⟨rest, hhits⟩ : ∃ rest, hits finish db q = patch :: rest := by
    rw [offer_eq, hq] at h
    cases hl : hits finish db q with
    | nil => simp [hl] at h
    | cons p rest =>
      rw [hl] at h
      simp only [ne_eq, reduceCtorEq, not_false_eq_true, decide_true, List.find?_cons_of_pos,
        Option.some.injEq] at h
      exact ⟨rest, by rw [h]⟩
  intro other hother
  have hactive : (active db q).Pairwise fun p p' => p'.outranks p = false := pairwise_active
  have hsorted := hactive.sublist
    (List.filter_sublist (p := fun p => isRolloutHit finish p q.clientId))
  unfold hits at hhits
  rw [hhits] at hsorted
  rw [hits, hhits] at hother
  rcases List.mem_cons.1 hother with rfl | hmem
  · cases ho : other.outranks other with
    | false => simp
    | true => exact absurd ho (by simp [outranks_asymm ho])
  · simpa using (List.pairwise_cons.1 hsorted).1 other hmem

/-! ## Coming to rest -/

theorem offer_iterate_succ (h : offer finish db (install finish db q) = none) (n : ℕ) :
    offer finish db ((install finish db)^[n + 1] q) = none := by
  have hfix : (install finish db)^[n + 1] q = install finish db q := by
    exact Function.iterate_fixed (install_of_none h) n
  rw [hfix, h]

/-- With one patch only to offer, nothing is offered once it is installed. -/
theorem offer_install (h : OneHit finish db q) : offer finish db (install finish db q) = none := by
  cases h0 : offer finish db q with
  | none => rw [install_of_none h0, h0]
  | some patch =>
    rw [offer_eq_none]
    intro other hother
    rw [hits_install] at hother
    rw [install_of_some h0, h.same patch (offer_hit h0).1 other hother]

theorem settles_of_oneHit (h : OneHit finish db q) : Settles finish db q where
  ends := by
    refine ⟨1, ?_⟩
    rw [Function.iterate_one]
    exact offer_install h
  forward := by
    intro n patch hoffer current hactive hcurrent
    cases n with
    | succ n =>
      rw [offer_iterate_succ (offer_install h)] at hoffer
      cases hoffer
    | zero =>
      rw [Function.iterate_zero_apply] at hoffer hcurrent
      obtain ⟨hmem, hother⟩ := offer_hit hoffer
      have hne : current.patchVersion ≠ patch.patchVersion := by
        intro heq
        exact hother (heq ▸ hcurrent)
      refine h.ahead patch ?_ current hactive hcurrent hne
      -- all hits are of one version, so it is the first of them that is offered
      rw [offer_eq] at hoffer
      cases hl : hits finish db q with
      | nil => simp [hl] at hmem
      | cons p rest =>
        have hp : q.currentPatchVersion ≠ some p.patchVersion := by
          rw [h.same p (by simp [hl]) patch hmem]
          exact hother
        rw [hl, List.find?_cons_of_pos (by simpa using hp)] at hoffer
        exact hoffer

theorem oneHit_of_settles (h : Settles finish db q) : OneHit finish db q := by
  have hsame : ∀ patch ∈ hits finish db q, ∀ patch' ∈ hits finish db q,
      patch.patchVersion = patch'.patchVersion := by
    intro patch hp patch' hp'
    obtain ⟨n, hn⟩ := h.ends
    have hall := offer_eq_none.1 hn
    rw [hits_iterate] at hall
    have hc := (hall patch hp).symm.trans (hall patch' hp')
    exact Option.some.inj hc
  refine ⟨hsame, ?_⟩
  intro patch hhead current hactive hcurrent hne
  refine h.forward 0 patch ?_ current hactive (by rw [Function.iterate_zero_apply, hcurrent])
  rw [Function.iterate_zero_apply, offer_eq]
  cases hl : hits finish db q with
  | nil => simp [hl] at hhead
  | cons p rest =>
    obtain rfl : p = patch := by simpa [hl] using hhead
    refine List.find?_cons_of_pos ?_
    rw [hcurrent]
    simpa using hne

/-- **Hot updates settle.** A client that installs whatever it is offered comes to rest, and is
never led back, exactly when it falls into the rollouts of one patch version, which the patch that
it runs does not outrank. -/
theorem hot_updates_settle (finish : Hasher) (db : VersionDb) (q : HotUpdateQuery) :
    Settles finish db q ↔ OneHit finish db q :=
  ⟨oneHit_of_settles, settles_of_oneHit⟩

end HotUpdates

/-! ## Two patches for everybody -/

namespace HotUpdates.Sample

def version : AppVersion :=
  { id := 1, platform := .android, version := "1.0.0", channel := "stable", isActive := true }

def patchAt (id : Uuid) (patchVersion : String) (releasedAt : Timestamp) : HotUpdate :=
  { id, platform := .android, appVersionId := 1, patchVersion, channel := "stable"
    downloadKey := "hot-updates/android/" ++ patchVersion ++ ".zip", downloadUrl := none
    fileSize := none, checksum := none, signature := none, rolloutPercentage := 100
    mandatory := false, description := none, isActive := true, releasedAt := some releasedAt
    createdAt := releasedAt, updatedAt := releasedAt }

/-- Two patches of one base version, both rolled out to everybody. -/
def db : VersionDb where
  versions := [version]
  hotUpdates := [patchAt 3 "1.0.0-patch2" 20, patchAt 2 "1.0.0-patch1" 10]

def query : HotUpdateQuery := { platform := "android", currentVersion := "1.0.0" }

end HotUpdates.Sample

namespace HotUpdates

/-- A client that has installed the second patch is offered the first one. -/
theorem led_back : ¬ Settles (fun _ => 0) Sample.db Sample.query := by
  intro h
  refine h.forward 1 (Sample.patchAt 2 "1.0.0-patch1" 10) ?_
    (Sample.patchAt 3 "1.0.0-patch2" 20) ?_ ?_ ?_
  · decide +kernel
  · decide +kernel
  · decide +kernel
  · decide +kernel

theorem first_offer_latest_sample :
    Sample.patchAt 2 "1.0.0-patch1" 10 ∈ hits (fun _ => 0) Sample.db Sample.query ∧
    ¬ (Sample.patchAt 2 "1.0.0-patch1" 10).outranks (Sample.patchAt 3 "1.0.0-patch2" 20) := by
  have hmem : Sample.patchAt 2 "1.0.0-patch1" 10 ∈ hits (fun _ => 0) Sample.db Sample.query := by
    decide +kernel
  exact ⟨hmem, first_offer_latest rfl (by decide +kernel) _ hmem⟩

end HotUpdates

end RedcodeIm
