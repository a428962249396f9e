import MorionOS.Lib.Ghost
import MorionOS.Mfs.Generations
import MorionOS.Mfs.Formatting

/-!
# The volume in memory and the current volume

There is one state in memory for all volumes.  Here the service runs with a ghost
component, its *source*: the volume from which the state in memory was loaded, or
nothing once a load has failed.  The request loop switches volumes by comparing
numbers only, so it relies on the source being the current volume.
`dispatched_on_loaded_volume` says in which runs it is, and `failed_switch_serves_stale_state`
is one in which it is not.
-/

namespace MorionOS.Mfs

open StateAct Layered Labelled Ghost Act

/-! ## Recording the source -/

/-- The file system with the volume that the state in memory was loaded from. -/
abbrev Sourced : Type := Fs × Option Nat

/-- Run a program that replaces the state in memory by that of the current volume. -/
def replacing : Act Fs Unit Unit → Act Sourced Unit Unit :=
  noting fun s outcome =>
    match outcome with
    | .ok _ => some s.mem.curVol
    | .error _ => none

/-- `mfs_switch_vol` with the source. -/
def switchVolSourced (vol : Nat) : Act Sourced Unit Unit := do
  lift flushRun
  lift (Act.modify fun s => (s.setCurVol vol ((s.env.findVolume vol).elim 0 (·.sectors))).clearLeaf)
  replacing mfsLoadState.run

variable (desc : VolumeDesc)

/-- `mfs_mkfs_volume` on a volume that may be overwritten, with the source. -/
def mkfsOnSourced : Act Sourced Unit Nat := fun p =>
  Act.after (lift (mfsNextPrimarySerial desc.id) p) fun serial p₁ =>
    let target := (p₁.1.setCurVol desc.id desc.sectors).clearLeaf
    let formatted := replacing mfsFormat.run
      ({ target with mem := target.mem.setVol fun v => { v with primarySerial := serial } }, p₁.2)
    let back := formatted.2.1.setCurVol p.1.mem.curVol p.1.mem.curSectors
    Act.after (replacing mfsLoadState.run (back, formatted.2.2)) fun _ p₂ =>
      match formatted.1 with
      | .error _ => (.error (), p₂)
      | .ok _ => lift (landedSerial desc.id) p₂

/-- `mfs_mkfs_volume` with the source. -/
def mkfsVolumeSourced (vol : Nat) (force : Bool) : Act Sourced Unit Nat := fun p =>
  match p.1.env.findVolume vol with
  | none => (.error (), p)
  | some desc =>
    if desc.kind = .foreign ∧ ¬ (force || INSTALL_MODE) then (.error (), p) else mkfsOnSourced desc p

/-- `mfs_set_primary_volume` on a MorionFS volume, with the source. -/
def setPrimaryOnSourced : Act Sourced Unit Nat := fun p =>
  Act.after (lift (mfsNextPrimarySerial desc.id) p) fun serial p₁ =>
    let loaded := replacing mfsLoadState.run ((p₁.1.setCurVol desc.id desc.sectors).clearLeaf, p₁.2)
    match loaded.1 with
    | .error _ => (.error (), (replacing mfsLoadState.run
        (loaded.2.1.setCurVol p.1.mem.curVol p.1.mem.curSectors, loaded.2.2)).2)
    | .ok _ =>
      let flushed := lift mfsBmpFlush.run
        ({ loaded.2.1 with mem := loaded.2.1.mem.setVol fun v => { v with primarySerial := serial } },
          loaded.2.2)
      let back := flushed.2.1.setCurVol p.1.mem.curVol p.1.mem.curSectors
      Act.after (replacing mfsLoadState.run (back, flushed.2.2)) fun _ p₂ =>
        match flushed.1 with
        | .error _ => (.error (), p₂)
        | .ok _ => lift (landedSerial desc.id) p₂

/-- `mfs_set_primary_volume` with the source. -/
def setPrimaryVolumeSourced (vol : Nat) : Act Sourced Unit Nat := fun p =>
  match p.1.env.findVolume vol with
  | none => (.error (), p)
  | some desc =>
    Act.after (lift (mfsSbProbe vol) p) fun probed p₁ =>
      match probed with
      | none => (.error (), p₁)
      | some _ => setPrimaryOnSourced desc p₁

/-! Without the source these are the programs of the service. -/

variable (vol : Nat)

theorem erase_switchVolSourced (p : Sourced) :
    erase (switchVolSourced vol p) = mfsSwitchVol vol p.1 :=
  erase_after (erase_lift flushRun p) fun _ p' => erase_after (erase_lift _ p') fun _ p'' =>
    erase_noting _ mfsLoadState.run p''

theorem erase_mkfsOnSourced (p : Sourced) :
    erase (mkfsOnSourced desc p) = mkfsOn desc p.1 := by
  refine erase_after (erase_lift _ p) fun serial p₁ => erase_after (erase_noting _ _ _) fun _ p₂ => ?_
  dsimp only [replacing, noting]
  generalize mfsFormat.run _ = formatted
  rcases formatted with ⟨e | u, s⟩ <;> rfl

theorem erase_mkfsVolumeSourced (force : Bool) (p : Sourced) :
    erase (mkfsVolumeSourced vol force p) = mfsMkfsVolume vol force p.1 := by
  rw [mkfsVolumeSourced, mfsMkfsVolume]
  cases p.1.env.findVolume vol with
  | none => rfl
  | some desc =>
    dsimp only
    split_ifs
    · rfl
    · exact erase_mkfsOnSourced desc p

theorem erase_setPrimaryOnSourced (p : Sourced) :
    erase (setPrimaryOnSourced desc p) = setPrimaryOn desc p.1 := by
  refine erase_after (erase_lift _ p) fun serial p₁ => ?_
  dsimp only [replacing, noting, lift]
  generalize mfsLoadState.run (Fs.clearLeaf _) = loaded
  rcases loaded with ⟨e | u, s⟩
  · rfl
  · generalize mfsBmpFlush.run _ = flushed
    obtain ⟨outcome, s'⟩ := flushed
    refine erase_after rfl fun _ p₂ => ?_
    cases outcome <;> rfl

theorem erase_setPrimaryVolumeSourced (p : Sourced) :
    erase (setPrimaryVolumeSourced vol p) = mfsSetPrimaryVolume vol p.1 := by
  rw [setPrimaryVolumeSourced, mfsSetPrimaryVolume]
  cases p.1.env.findVolume vol with
  | none => rfl
  | some desc =>
    refine erase_after (erase_lift _ p) fun probed p₁ => ?_
    cases probed with
    | none => rfl
    | some serial => exact erase_setPrimaryOnSourced desc p₁

variable {s s' : Fs} {p : Sourced}

/-! ## Programs that keep the window empty -/

/-- Nothing is lost: staged writes have reached the disk, if anything. -/
theorem flushRun_clean_after (s : Fs) : (flushRun s).2.wb = [] := by
  have flush := staged_flushRun s
  rcases ran : flushRun s with ⟨e | u, s'⟩
  · obtain ⟨P, -, -, empty⟩ := flush.of_error ran
    exact empty
  · exact (flush.of_ok ran).2

/-- An empty window stays empty. -/
def KeepsClean (s s' : Fs) : Prop := s.wb = [] → s'.wb = []

instance : IsPreorder Fs KeepsClean where
  refl _ := id
  trans _ _ _ h h' := h' ∘ h

theorem clean_of_via (via : Via Move Label.upkeep s s') : KeepsClean s s' := by
  refine via.induct fun s₁ l s₂ label move => ?_
  cases move with
  | memory | table | volume => exact id
  | flush => exact fun _ => flushRun_clean_after s₁
  | commit =>
    obtain ⟨done, P, -, -, -, empty, -⟩ := staged_mfsBmpFlush s₁
    exact fun _ => empty
  | write | select => cases label

theorem clean_of_quiet (via : Via Move Label.quiet s s') : KeepsClean s s' :=
  clean_of_via (via.mono fun l h => Label.upkeep_of_reading l (Label.reading_of_quiet l h))

theorem confined_of_quiet (via : Via Move Label.quiet s s') : Confined s s' :=
  confined_of_via (via.mono fun l h => Label.onVolume_of_onTree l (Label.onTree_of_quiet l h))

/-! ## Reliable devices -/

/-- Transfers and page allocations succeed. -/
def Fs.Reliable (s : Fs) : Prop := s.IoOk ∧ ∀ i, s.env.pageOk i = true

theorem Fs.Reliable.of_env (rel : s.Reliable) (env : s'.env = s.env) : s'.Reliable := by
  rw [Fs.Reliable, Fs.IoOk, env]
  exact rel

/-- Whether a volume can be loaded depends on its content and its size. -/
theorem Core.Recoverable.of_store {c c' : Core} (can : c.Recoverable) (store : c'.store = c.store)
    (sectors : c'.mem.curSectors = c.mem.curSectors) : c'.Recoverable := by
  simpa only [Core.Recoverable, Core.CanLoad, Core.offered, Core.BitmapFits, store, sectors] using can

/-- The content of a volume that becomes the current one while nothing is staged. -/
theorem store_setCurVol (clean : s.wb = []) (vol sectors : Nat) :
    (s.setCurVol vol sectors).core.store = s.disk vol := by
  rw [Fs.core, Fs.setCurVol, clean, applyWrites_nil]

/-- A flush of a reliable device does not change the content of the current volume. -/
theorem flushRun_store (rel : s.Reliable) : (flushRun s).2.core.store = s.core.store := by
  obtain ⟨s', ran, core, -⟩ := flushRun_ok rel.1
  rw [ran, core]

theorem quiet_store (rel : s.Reliable) (via : Via Move Label.quiet s s') : s'.core.store = s.core.store := by
  obtain ⟨ls, trace, labels⟩ := via
  have kept : s'.env = s.env ∧ s'.core.store = s.core.store := by
    refine trace.invariant (I := fun x => x.env = s.env ∧ x.core.store = s.core.store) labels ⟨rfl, rfl⟩
      fun s₁ l s₂ label last before => ?_
    obtain ⟨env, store⟩ := before
    have confined := last.confined (Label.onVolume_of_onTree l (Label.onTree_of_quiet l label))
    refine ⟨confined.env.trans env, ?_⟩
    cases last with
    | memory tick vol cur sectors =>
      rw [← store, Fs.core, Fs.core]
      simp only [cur]
    | table => exact store
    | flush => exact (flushRun_store (rel.of_env env)).trans store
    | write | volume | commit | select => cases label
  exact kept.2

/-! ## Loading the current volume -/

theorem load_reliable (rel : s.Reliable) (can : s.core.Recoverable) :
    ∃ s', mfsLoadState.run s = (.ok (), s') ∧ Confined s s' ∧ s'.core.Recoverable := by
  obtain ⟨copy, -, sb, c', finds, ideal⟩ := load_of_recoverable (c := s.core) rel.2 can
  obtain ⟨ok, core, -⟩ := mfsLoadState.run_eq rel.1 ideal
  have confined := confined_of_via ((stays_of_tends (m := mfsLoadState)).keeps s)
  obtain ⟨c₀, same, adopted⟩ := finds.2.1
  refine ⟨(mfsLoadState.run s).2, eq_of_fst ok, confined, can.of_store ?_ confined.sectors⟩
  rw [core]
  exact adopted.store.trans same.store

theorem replacing_load (rel : s.Reliable) (can : s.core.Recoverable) (source : Option Nat) :
    ∃ s', replacing mfsLoadState.run (s, source) = (.ok (), s', some s.mem.curVol) ∧ Confined s s' ∧
      s'.core.Recoverable := by
  obtain ⟨s', ran, confined, can'⟩ := load_reliable rel can
  refine ⟨s', ?_, confined, can'⟩
  rw [replacing, noting, ran]

/-! ## Switching -/

/-- The volume can be loaded as it is on the disk. -/
def Fs.Loadable (s : Fs) (vol : Nat) : Prop :=
  Core.Recoverable ({ s.setCurVol vol ((s.env.findVolume vol).elim 0 (·.sectors)) with wb := [] } : Fs).core

theorem switch_reliable {vol : Nat} (rel : s.Reliable) (other : vol ≠ s.mem.curVol)
    (can : s.Loadable vol) (source : Option Nat) :
    ∃ s', switchVolSourced vol (s, source) = (.ok (), s', some vol) ∧ s'.mem.curVol = vol ∧ s'.Reliable ∧
      s'.core.Recoverable := by
  obtain ⟨s₀, ran, -, env, clean⟩ := flushRun_ok rel.1
  have confined := confined_flushRun s
  rw [ran] at confined
  have recoverable : ((s₀.setCurVol vol ((s₀.env.findVolume vol).elim 0 (·.sectors))).clearLeaf).core.Recoverable := by
    refine Core.Recoverable.of_store can ?_ (by rw [env]; rfl)
    exact (store_setCurVol clean vol ((s₀.env.findVolume vol).elim 0 (·.sectors))).trans
      (confined.disk vol other)
  have rel₁ : ((s₀.setCurVol vol ((s₀.env.findVolume vol).elim 0 (·.sectors))).clearLeaf).Reliable :=
    rel.of_env env
  obtain ⟨s', load, confined', can'⟩ := replacing_load rel₁ recoverable source
  refine ⟨s', ?_, confined'.curVol, rel₁.of_env confined'.env, can'⟩
  rw [switchVolSourced, bind_apply, lift, ran, after_ok]
  exact load

/-! ## Going to another volume and back -/

theorem mfsSbProbe_clean (s : Fs) : (mfsSbProbe vol s).2.wb = [] := by
  have empty := flushRun_clean_after s
  rw [mfsSbProbe, Act.bind_apply, Act.attempt]
  rcases ran : flushRun s with ⟨e | u, s'⟩
  · rw [ran] at empty
    exact empty
  · rw [ran] at empty
    exact clean_of_quiet (peeks_sbProbeScan vol _ _ s') empty

theorem mfsNextPrimarySerial_clean (s : Fs) : (mfsNextPrimarySerial vol s).2.wb = [] := by
  have empty := mfsSbProbe_clean vol s
  rw [mfsNextPrimarySerial, mfsPrimaryOfVol, bind_apply]
  rcases ran : mfsSbProbe vol s with ⟨e | probed, s'⟩
  · rw [ran] at empty
    exact empty
  · rw [ran] at empty
    rw [after_ok, pure_apply, after_ok, after_map_snd]
    exact clean_of_quiet (peeks_maxPrimary vol _ _ s') empty

theorem format_reliable (rel : s.Reliable) : Confined s (mfsFormat.run s).2 ∧ (mfsFormat.run s).2.wb = [] := by
  refine ⟨confined_of_via (stays_mfsFormat.keeps s), ?_⟩
  have ends := ends_mfsFormat (c := s.core) rel.2
  rcases ideal : mfsFormat.ideal s.core with ⟨e | u, c⟩
  · exact (ends.of_error ideal).elim
  · have ran := eq_of_fst (mfsFormat.run_eq rel.1 ideal).1
    generalize (mfsFormat.run s).2 = s' at ran ⊢
    rw [mfsFormat] at ran
    -- the last step is a commit, which leaves the window empty
    iterate 12
      rw [run_bind] at ran
      obtain ⟨_, s₁, -, ran⟩ := after_eq_ok ran
    obtain ⟨done, P, -, -, -, empty, -⟩ := staged_mfsBmpFlush s₁
    rw [ran] at empty
    exact empty

/-- The source is the current volume. -/
def Sourced.Agrees (p : Sourced) : Prop := p.2 = some p.1.mem.curVol

theorem agrees_lift {ε α : Type} {m : Act Fs ε α} (agrees : p.Agrees)
    (confined : Confined p.1 (m p.1).2) : Sourced.Agrees (lift m p).2 :=
  agrees.trans (congrArg some confined.curVol.symm)

/-- After a visit to another volume that leaves nothing staged the volume of before can be loaded
again, as its content has not changed. -/
theorem reload_reliable {s₁ t s₂ : Fs} (rel : s.Reliable) (can : s.core.Recoverable)
    (probed : Via Move Label.quiet s s₁) (clean₁ : s₁.wb = []) (env : t.env = s₁.env) (disk : t.disk = s₁.disk)
    (other : t.mem.curVol ≠ s.mem.curVol) (visit : Confined t s₂) (clean₂ : s₂.wb = []) (source : Option Nat) :
    ∃ s', replacing mfsLoadState.run (s₂.setCurVol s.mem.curVol s.mem.curSectors, source) =
      (.ok (), s', some s.mem.curVol) ∧ s'.mem.curVol = s.mem.curVol := by
  have start := confined_of_quiet probed
  have before : s₁.disk s.mem.curVol = s.core.store := by
    rw [← quiet_store rel probed, ← start.curVol, Fs.core, clean₁, applyWrites_nil]
  have content : (s₂.setCurVol s.mem.curVol s.mem.curSectors).core.store = s.core.store := by
    rw [store_setCurVol clean₂, visit.disk _ (Ne.symm other), disk, before]
  have rel₂ : (s₂.setCurVol s.mem.curVol s.mem.curSectors).Reliable :=
    rel.of_env (visit.env.trans (env.trans start.env))
  obtain ⟨s', ran, confined, -⟩ := replacing_load rel₂ (can.of_store content rfl) source
  exact ⟨s', ran, confined.curVol⟩

/-- `mfs_mkfs_volume` on another volume comes back to the current one. -/
theorem mkfsOnSourced_agrees {desc : VolumeDesc} (agrees : p.Agrees) (rel : p.1.Reliable)
    (can : p.1.core.Recoverable) (other : desc.id ≠ p.1.mem.curVol) :
    Sourced.Agrees (mkfsOnSourced desc p).2 := by
  have probed := peeks_mfsNextPrimarySerial desc.id p.1
  have clean := mfsNextPrimarySerial_clean desc.id p.1
  rw [mkfsOnSourced, lift]
  rcases ran : mfsNextPrimarySerial desc.id p.1 with ⟨e | serial, s₁⟩
  · rw [ran] at probed
    exact agrees.trans (congrArg some (confined_of_quiet probed).curVol.symm)
  · rw [ran] at probed clean
    rw [after_ok]
    dsimp only
    generalize target : ({ (s₁.setCurVol desc.id desc.sectors).clearLeaf with
      mem := (s₁.setCurVol desc.id desc.sectors).clearLeaf.mem.setVol fun v =>
        { v with primarySerial := serial } } : Fs) = t
    have chosen : t.env = s₁.env ∧ t.disk = s₁.disk ∧ t.mem.curVol = desc.id := by
      rw [← target]
      exact ⟨rfl, rfl, rfl⟩
    obtain ⟨env, disk, vol⟩ := chosen
    obtain ⟨visit, clean'⟩ := format_reliable (rel.of_env (env.trans (confined_of_quiet probed).env))
    obtain ⟨s', load, back⟩ := reload_reliable rel can probed clean env disk (vol ▸ other) visit clean'
      (replacing mfsFormat.run (t, p.2)).2.2
    have reloaded : replacing mfsLoadState.run
        ((replacing mfsFormat.run (t, p.2)).2.1.setCurVol p.1.mem.curVol p.1.mem.curSectors,
          (replacing mfsFormat.run (t, p.2)).2.2) = (.ok (), s', some p.1.mem.curVol) := load
    rw [reloaded, after_ok]
    have agrees' : Sourced.Agrees (s', some p.1.mem.curVol) := congrArg some back.symm
    split
    · exact agrees'
    · exact agrees_lift agrees' (confined_of_quiet (peeks_landedSerial desc.id s'))

/-- `mfs_set_primary_volume` on another volume comes back to the current one. -/
theorem setPrimaryOnSourced_agrees {desc : VolumeDesc} (agrees : p.Agrees) (rel : p.1.Reliable)
    (can : p.1.core.Recoverable) (other : desc.id ≠ p.1.mem.curVol) :
    Sourced.Agrees (setPrimaryOnSourced desc p).2 := by
  have probed := peeks_mfsNextPrimarySerial desc.id p.1
  have clean := mfsNextPrimarySerial_clean desc.id p.1
  rw [setPrimaryOnSourced, lift]
  rcases ran : mfsNextPrimarySerial desc.id p.1 with ⟨e | serial, s₁⟩
  · rw [ran] at probed
    exact agrees.trans (congrArg some (confined_of_quiet probed).curVol.symm)
  · rw [ran] at probed clean
    rw [after_ok]
    dsimp only
    generalize target : (s₁.setCurVol desc.id desc.sectors).clearLeaf = t
    have chosen : t.env = s₁.env ∧ t.disk = s₁.disk ∧ t.mem.curVol = desc.id ∧ t.wb = s₁.wb := by
      rw [← target]
      exact ⟨rfl, rfl, rfl, rfl⟩
    obtain ⟨env, disk, vol, window⟩ := chosen
    have visit := confined_of_via ((stays_of_tends (m := mfsLoadState)).keeps t)
    have clean₂ := clean_of_via (tends_mfsLoadState.keeps t) (window.trans clean)
    have away : t.mem.curVol ≠ p.1.mem.curVol := vol ▸ other
    rw [replacing, noting, noting]
    rcases loaded : mfsLoadState.run t with ⟨e | u, s₂⟩
    · -- the volume could not be loaded
      rw [loaded] at visit clean₂
      obtain ⟨s', load, back⟩ := reload_reliable rel can probed clean env disk away visit clean₂ none
      exact (congrArg (fun r => r.2.2) load).trans
        (congrArg some (back.symm.trans (congrArg (fun r => r.2.1.mem.curVol) load).symm))
    · rw [loaded] at visit clean₂
      generalize marked : ({ s₂ with mem := s₂.mem.setVol fun v => { v with primarySerial := serial } } : Fs) = s₃
      have visit₃ : Confined t s₃ := by
        rw [← marked]
        exact ⟨visit.env, visit.curVol, visit.sectors, visit.disk⟩
      obtain ⟨done, P, -, -, staged, clean₄, -⟩ := staged_mfsBmpFlush s₃
      have visit₄ := trans_of Confined visit₃ staged.confined
      obtain ⟨s', load, back⟩ := reload_reliable rel can probed clean env disk away visit₄ clean₄
        (some t.mem.curVol)
      have agrees' : Sourced.Agrees (s', some p.1.mem.curVol) := congrArg some back.symm
      change Sourced.Agrees (after (replacing mfsLoadState.run _) _).2
      dsimp only [lift]
      rw [load, after_ok]
      split
      · exact agrees'
      · exact agrees_lift agrees' (confined_of_quiet (peeks_landedSerial desc.id s'))

theorem mkfsVolumeSourced_agrees {vol : Nat} (force : Bool) (agrees : p.Agrees)
    (rel : p.1.Reliable) (can : p.1.core.Recoverable) (other : vol ≠ p.1.mem.curVol) :
    Sourced.Agrees (mkfsVolumeSourced vol force p).2 := by
  rw [mkfsVolumeSourced]
  cases found : p.1.env.findVolume vol with
  | none => exact agrees
  | some desc =>
    dsimp only
    split_ifs
    · exact agrees
    · have id : desc.id = vol := by simpa using List.find?_some found
      exact mkfsOnSourced_agrees agrees rel can (id ▸ other)

theorem setPrimaryVolumeSourced_agrees {vol : Nat} (agrees : p.Agrees)
    (rel : p.1.Reliable) (can : p.1.core.Recoverable) (other : vol ≠ p.1.mem.curVol) :
    Sourced.Agrees (setPrimaryVolumeSourced vol p).2 := by
  rw [setPrimaryVolumeSourced]
  cases found : p.1.env.findVolume vol with
  | none => exact agrees
  | some desc =>
    have id : desc.id = vol := by simpa using List.find?_some found
    have probed := peeks_mfsSbProbe vol p.1
    have confined := confined_of_quiet probed
    have rel₁ := rel.of_env confined.env
    have can₁ := can.of_store (quiet_store rel probed) confined.sectors
    have agrees₁ : Sourced.Agrees ((mfsSbProbe vol p.1).2, p.2) := agrees_lift agrees confined
    have other₁ : desc.id ≠ (mfsSbProbe vol p.1).2.mem.curVol := by
      rw [id, confined.curVol]
      exact other
    dsimp only [lift]
    rcases ran : mfsSbProbe vol p.1 with ⟨e | probe, s₁⟩
    · rw [ran] at agrees₁
      exact agrees₁
    · rw [ran] at agrees₁ rel₁ can₁ other₁
      rw [after_ok]
      cases probe with
      | none => exact agrees₁
      | some serial => exact setPrimaryOnSourced_agrees agrees₁ rel₁ can₁ other₁

/-! ## The service with its source -/

/-- The service with the volume that the state in memory was loaded from. -/
structure Tracked where
  srv : Srv
  source : Option Nat

variable {t : Tracked}

/-- The file system part. -/
def Tracked.fs (t : Tracked) : Sourced := (t.srv.fs, t.source)

/-- Make `vol` the current volume if it is not. -/
def Tracked.onVolume (t : Tracked) (vol : Nat) : Except Unit Unit × Tracked :=
  ((t.srv.onVolume vol).1, ⟨(t.srv.onVolume vol).2,
    if vol = t.srv.fs.mem.curVol then t.source else (switchVolSourced vol t.fs).2.2⟩)

/-- The body of the request loop once the right volume is loaded. -/
def Tracked.dispatch (t : Tracked) (msg : Message) : Tracked where
  srv := (t.srv.dispatch msg.sender (credOf msg.sender) msg.req).2
  source :=
    match msg.req with
    | .mkfs vol force => (mkfsVolumeSourced vol force t.fs).2.2
    | .setPrimary vol => (setPrimaryVolumeSourced vol t.fs).2.2
    | _ => t.source

/-- A round of the request loop: a message and how the surroundings behave meanwhile. -/
structure Round where
  env : Env
  msg : Message

/-- The service in the surroundings of a round. -/
def Srv.within (s : Srv) (env : Env) : Srv := { s with fs := { s.fs with env := env } }

/-- The state in which the request loop turns to the message. -/
def Tracked.receive (t : Tracked) (r : Round) : Tracked := ⟨(t.srv.within r.env).collected, t.source⟩

/-- The state in which a request is dispatched, unless its volume cannot be loaded. -/
def Tracked.prepared (t : Tracked) (r : Round) : Except Unit Unit × Tracked :=
  (t.receive r).onVolume ((t.receive r).srv.volumeOf r.msg)

/-- The state after a round. -/
def Tracked.round (t : Tracked) (r : Round) : Tracked :=
  match t.prepared r with
  | (.error _, t') => t'
  | (.ok _, t') => t'.dispatch r.msg

/-- The state after a sequence of rounds. -/
def Tracked.rounds (t : Tracked) : List Round → Tracked
  | [] => t
  | r :: rest => (t.round r).rounds rest

/-! ## Runs in which every load succeeds -/

/-- The other volume that a request works on before it comes back. -/
def Request.visits : Request → Option Nat
  | .mkfs vol _ | .setPrimary vol => some vol
  | _ => none

/-- Every volume that has to be loaded for the message can be loaded: its own volume, when another
one is the current one, and again its own volume after a visit to another one. -/
structure Srv.Ready (s : Srv) (msg : Message) : Prop where
  switch : s.volumeOf msg ≠ s.fs.mem.curVol → s.fs.Reliable ∧ s.fs.Loadable (s.volumeOf msg)
  back : ∀ vol, msg.req.visits = some vol → vol ≠ s.volumeOf msg ∧
    (s.volumeOf msg = s.fs.mem.curVol → s.fs.Reliable ∧ s.fs.core.Recoverable)

/-- A run all of whose rounds are ready. -/
def Tracked.Admits (t : Tracked) : List Round → Prop
  | [] => True
  | r :: rest => (t.receive r).srv.Ready r.msg ∧ (t.round r).Admits rest

theorem Tracked.receive_agrees (agrees : t.fs.Agrees) (r : Round) : (t.receive r).fs.Agrees := by
  have confined := confined_of_via (stays_collected (t.srv.within r.env))
  exact agrees.trans (congrArg some confined.curVol.symm)

/-- With a message that is ready the volume of the message gets loaded. -/
theorem Tracked.onVolume_agrees {msg : Message} (agrees : t.fs.Agrees)
    (ready : t.srv.Ready msg) : ∃ t', t.onVolume (t.srv.volumeOf msg) = (.ok (), t') ∧ t'.fs.Agrees ∧
      t'.srv.fs.mem.curVol = t.srv.volumeOf msg ∧
      ∀ vol, msg.req.visits = some vol → vol ≠ t'.srv.fs.mem.curVol ∧ t'.srv.fs.Reliable ∧
        t'.srv.fs.core.Recoverable := by
  by_cases same : t.srv.volumeOf msg = t.srv.fs.mem.curVol
  · refine ⟨t, ?_, agrees, same.symm, fun vol visit => ?_⟩
    · rw [Tracked.onVolume, Srv.onVolume, if_pos same, if_pos same]
    · obtain ⟨other, back⟩ := ready.back vol visit
      exact ⟨same ▸ other, back same⟩
  · obtain ⟨rel, can⟩ := ready.switch same
    obtain ⟨s', ran, cur, rel', can'⟩ := switch_reliable rel same can t.source
    have plain := erase_switchVolSourced (t.srv.volumeOf msg) t.fs
    rw [Tracked.fs, ran] at plain
    refine ⟨⟨{ t.srv with fs := s' }, some (t.srv.volumeOf msg)⟩, ?_, congrArg some cur.symm, cur,
      fun vol visit => ⟨?_, rel', can'⟩⟩
    · rw [Tracked.onVolume, Srv.onVolume, if_neg same, if_neg same, Tracked.fs, ran]
      rw [← plain]
      rfl
    · rw [cur]
      exact (ready.back vol visit).1

theorem run_withMax_fs {α : Type} (s : Srv) (m : Act Fs Unit α) (code : α → Nat) (page : α → Result) :
    (s.run (withMax m) code page).2.fs = (m s.fs).2 := by
  rw [Srv.run, withMax]
  rcases m s.fs with ⟨e | a, s'⟩ <;> rfl

/-- Requests leave the source and the current volume in agreement. -/
theorem Tracked.dispatch_agrees {msg : Message} (agrees : t.fs.Agrees)
    (back : ∀ vol, msg.req.visits = some vol → vol ≠ t.srv.fs.mem.curVol ∧ t.srv.fs.Reliable ∧
      t.srv.fs.core.Recoverable) : (t.dispatch msg).fs.Agrees := by
  cases stays : msg.req.onVolume with
  | true =>
    have confined := confined_of_via (@stays_dispatch (credOf msg.sender) t.srv msg.sender msg.req stays)
    have source : (t.dispatch msg).source = t.source := by
      rw [Tracked.dispatch]
      cases req : msg.req with
      | mkfs | setPrimary =>
        rw [req] at stays
        cases stays
      | _ => rfl
    exact source.trans (agrees.trans (congrArg some confined.curVol.symm))
  | false =>
    obtain ⟨sender, enc, req⟩ := msg
    cases req with
    | mkfs vol force =>
      obtain ⟨other, rel, can⟩ := back vol rfl
      have after := mkfsVolumeSourced_agrees force agrees rel can other
      have plain := congrArg Prod.snd (erase_mkfsVolumeSourced vol force t.fs)
      have state := (run_withMax_fs t.srv (mfsMkfsVolume vol force) id fun _ => .none).trans plain.symm
      exact after.trans (congrArg (fun s : Fs => some s.mem.curVol) state.symm)
    | setPrimary vol =>
      obtain ⟨other, rel, can⟩ := back vol rfl
      have after := setPrimaryVolumeSourced_agrees agrees rel can other
      have plain := congrArg Prod.snd (erase_setPrimaryVolumeSourced vol t.fs)
      have state := (run_withMax_fs t.srv (mfsSetPrimaryVolume vol) id fun _ => .none).trans plain.symm
      exact after.trans (congrArg (fun s : Fs => some s.mem.curVol) state.symm)
    | _ => cases stays

theorem Tracked.round_agrees {r : Round} (agrees : t.fs.Agrees)
    (ready : (t.receive r).srv.Ready r.msg) : (t.round r).fs.Agrees := by
  obtain ⟨t', ran, agrees', -, back⟩ := onVolume_agrees (t.receive_agrees agrees r) ready
  rw [Tracked.round, Tracked.prepared, ran]
  exact dispatch_agrees agrees' back

theorem Tracked.rounds_agrees {rs rest : List Round} (agrees : t.fs.Agrees)
    (admits : t.Admits (rs ++ rest)) : (t.rounds rs).fs.Agrees ∧ (t.rounds rs).Admits rest := by
  induction rs generalizing t with
  | nil => exact ⟨agrees, admits⟩
  | cons r rs ih => exact ih (round_agrees agrees admits.1) admits.2

/-- **Requests are dispatched on the volume that was loaded**, in every run in which the volumes that
have to be loaded can be loaded. -/
theorem dispatched_on_loaded_volume {t : Tracked} (start : t.fs.Agrees) {rs : List Round} {r : Round}
    (admits : t.Admits (rs ++ [r])) {t' : Tracked} (ran : (t.rounds rs).prepared r = (.ok (), t')) :
    t'.source = some t'.srv.fs.mem.curVol := by
  obtain ⟨agrees, ready, -⟩ := Tracked.rounds_agrees start admits
  obtain ⟨t'', ran', agrees', -⟩ := Tracked.onVolume_agrees ((t.rounds rs).receive_agrees agrees r) ready
  obtain rfl : t' = t'' := congrArg Prod.snd (ran.symm.trans ran')
  exact agrees'

/-! ## Two volumes -/

/-- The small volume is loaded; volume 1 has the content `other`. -/
def demoTwo (other : Nat → Block) : Tracked where
  srv := ⟨{ demoFs true [] [] with disk := fun vol => if vol = 1 then other else demoStore },
    List.replicate MFS_MAX_FD MFS_FD_EMPTY, 0⟩
  source := some 0

/-- A request for volume 1 on a reliable device. -/
def demoOther : Round := ⟨{ demoEnv true with volumes := [⟨1, 512, .mfs⟩] }, ⟨1, 2, .sync⟩⟩

theorem demoTwo_receive (other : Nat → Block) :
    ((demoTwo other).receive demoOther).srv = (demoTwo other).srv.within demoOther.env :=
  collected_of_space (s := (demoTwo other).srv.within demoOther.env) (by decide : 64 / MFS_GC_LOW_WATER_DIV < 54)

/-- A volume that can be loaded is loaded before the request is served. -/
theorem demoOther_loaded : ∃ t', (demoTwo (demoCrashed.disk 0)).prepared demoOther = (.ok (), t') ∧
    t'.source = some t'.srv.fs.mem.curVol := by
  have start : (demoTwo (demoCrashed.disk 0)).fs.Agrees := rfl
  have can : demoCrashed.core.Recoverable := ⟨0, by decide, _, demoCrashed_canLoad⟩
  have ready : ((demoTwo (demoCrashed.disk 0)).receive demoOther).srv.Ready demoOther.msg := by
    rw [demoTwo_receive]
    refine ⟨fun _ => ⟨⟨⟨fun _ => rfl, fun _ => rfl⟩, fun _ => rfl⟩, can.of_store rfl rfl⟩, fun vol visit => ?_⟩
    cases visit
  have admits : (demoTwo (demoCrashed.disk 0)).Admits ([] ++ [demoOther]) := ⟨ready, trivial⟩
  obtain ⟨t', ran, -⟩ := Tracked.onVolume_agrees (Tracked.receive_agrees start demoOther) ready
  exact ⟨t', ran, dispatched_on_loaded_volume start admits ran⟩

/-- Volume 1 cannot be loaded.  The first request for it is given up, the second one is served with
the state of the small volume, whose superblock it writes to volume 1. -/
theorem failed_switch_serves_stale_state :
    (demoTwo fun _ => .raw 0).fs.Agrees ∧
      ∃ t', ((demoTwo fun _ => .raw 0).rounds [demoOther]).prepared demoOther = (.ok (), t') ∧
        t'.source ≠ some t'.srv.fs.mem.curVol ∧
        ((demoTwo fun _ => .raw 0).srv.fs.disk 1 0).superGen = none ∧
        (((demoTwo fun _ => .raw 0).rounds [demoOther, demoOther]).srv.fs.disk 1 0).superGen = some 2 := by
  refine ⟨rfl, _, eq_of_fst ?_, ?_⟩ <;> decide +kernel

end MorionOS.Mfs
