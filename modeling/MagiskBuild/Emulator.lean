import Mathlib.Data.List.Infix
import MagiskBuild.Effects
import MagiskBuild.Headers

/-!
The file steps of `patch_avd_ramdisk`, between `build_all` and `push_files`: the ramdisk image is
backed up unless a backup is there, and the emulator's `advancedFeatures.ini`, when it turns
system-as-root on, is backed up and rewritten by `str.replace`. The rewrite leaves no
`SystemAsRoot = on` behind, since the replacement starts with the only `S` either text has and
then differs from it; so every run that returns leaves an ini that reads back with system-as-root
off. The steps touch the two ini files and a ramdisk backup that was missing, nothing else.
The adb commands that follow are not modelled.
-/
namespace MagiskBuild

def replaceFrom (old new : Str) : Nat → Str → Str
  | _, [] => []
  | 0, c :: cs =>
    if old.isPrefixOf (c :: cs) then new ++ replaceFrom old new (old.length - 1) cs
    else c :: replaceFrom old new 0 cs
  | n + 1, _ :: cs => replaceFrom old new n cs

/-- `s.replace(old, new)` for a nonempty `old`: its occurrences, left to right and not
overlapping, each replaced by `new`. -/
def pyReplace (old new s : Str) : Str := replaceFrom old new 0 s

section Replace

variable {old new : Str}

theorem replaceFrom_eq (n : Nat) (s : Str) : replaceFrom old new n s = pyReplace old new (s.drop n) := by
  induction s generalizing n with
  | nil => cases n <;> rfl
  | cons c cs ih =>
    cases n with
    | zero => rfl
    | succ n => exact ih n

@[simp] theorem pyReplace_nil : pyReplace old new [] = [] := rfl

theorem pyReplace_cons {o : Char} {old' : Str} (c : Char) (cs : Str) :
    pyReplace (o :: old') new (c :: cs) = if o :: old' <+: c :: cs then
      new ++ pyReplace (o :: old') new (cs.drop old'.length) else c :: pyReplace (o :: old') new cs := by
  simp only [pyReplace, replaceFrom, List.isPrefixOf_iff_prefix, List.length_cons, Nat.add_sub_cancel]
  rw [replaceFrom_eq]
  rfl

theorem mem_pyReplace {a : Char} {s : Str} (h : a ∈ pyReplace old new s) : a ∈ s ∨ a ∈ new := by
  suffices ∀ n s, a ∈ replaceFrom old new n s → a ∈ s ∨ a ∈ new from this 0 s h
  intro n s
  induction s generalizing n with
  | nil => simp [replaceFrom]
  | cons c cs ih =>
    cases n with
    | zero =>
      simp only [replaceFrom]
      split
      · intro hm
        rcases List.mem_append.mp hm with hn | hr
        · exact .inr hn
        · exact (ih _ hr).imp_left (List.mem_cons_of_mem c)
      · intro hm
        rcases List.mem_cons.mp hm with rfl | hr
        · exact .inl (List.mem_cons_self _ _)
        · exact (ih _ hr).imp_left (List.mem_cons_of_mem _)
    | succ n => exact fun hr => (ih n hr).imp_left (List.mem_cons_of_mem c)

variable {o : Char} {old' new' : Str}

theorem prefix_of_prefix_pyReplace {p : Str} (hp : o ∉ p) :
    ∀ {s : Str}, p <+: pyReplace (o :: old') (o :: new') s → p <+: s := by
  induction p with
  | nil => exact fun _ => List.nil_prefix
  | cons a p ih =>
    intro s pre
    cases s with
    | nil => simp at pre
    | cons c cs =>
      rw [pyReplace_cons] at pre
      split at pre
      · obtain rfl : a = o := (List.cons_prefix_cons.mp pre).1
        exact absurd (List.mem_cons_self a p) hp
      · obtain ⟨rfl, rest⟩ := List.cons_prefix_cons.mp pre
        exact List.cons_prefix_cons.mpr ⟨rfl, ih (fun h => hp (List.mem_cons_of_mem a h)) rest⟩

theorem not_infix_replacement_append (hn : o ∉ new') (long : old'.length ≤ new'.length) (differ : ¬ old' <+: new')
    {r : Str} (hr : ¬ o :: old' <:+: r) : ¬ o :: old' <:+: (o :: new') ++ r := by
  rintro ⟨u, v, h⟩
  cases u with
  | nil =>
    have pre : old' <+: new' ++ r := ⟨v, by simpa using h⟩
    exact differ (List.prefix_of_prefix_length_le pre (List.prefix_append _ _) long)
  | cons a u =>
    simp only [List.cons_append, List.cons.injEq] at h
    rcases List.append_eq_append_iff.mp (by simpa using h.2) with ⟨t, rfl, ht⟩ | ⟨t, rfl, rfl⟩
    · cases t with
      | nil => exact hr ⟨[], v, by simpa using ht⟩
      | cons b t =>
        obtain ⟨rfl, -⟩ := List.cons.inj ht
        exact hn (List.mem_append_right u (List.mem_cons_self _ t))
    · exact hr ⟨t, v, by simp⟩

theorem not_infix_pyReplace (ho : o ∉ old') (hn : o ∉ new') (long : old'.length ≤ new'.length)
    (differ : ¬ old' <+: new') (s : Str) : ¬ o :: old' <:+: pyReplace (o :: old') (o :: new') s := by
  induction' hl : s.length using Nat.strong_induction_on with k ih generalizing s
  cases s with
  | nil => exact fun ⟨u, v, h⟩ => by simp at h
  | cons c cs =>
    have ih' : ∀ t : Str, t.length ≤ cs.length → ¬ o :: old' <:+: pyReplace (o :: old') (o :: new') t :=
      fun t ht => ih t.length (by simp at hl; omega) t rfl
    rw [pyReplace_cons]
    split
    · exact not_infix_replacement_append hn long differ (ih' _ (List.length_drop _ _ ▸ Nat.sub_le _ _))
    · rename_i notPre
      rintro ⟨u, v, h⟩
      cases u with
      | nil =>
        obtain ⟨rfl, rest⟩ := List.cons.inj h
        exact notPre (List.cons_prefix_cons.mpr ⟨rfl, prefix_of_prefix_pyReplace ho ⟨v, rest⟩⟩)
      | cons a u => exact ih' cs le_rfl ⟨u, v, (List.cons.inj h).2⟩

end Replace

def systemAsRootOn : Str := "SystemAsRoot = on".toList

def systemAsRootOff : Str := "SystemAsRoot = off".toList

theorem not_infix_systemAsRoot (s : Str) : ¬ systemAsRootOn <:+: pyReplace systemAsRootOn systemAsRootOff s :=
  not_infix_pyReplace (by decide) (by decide) (by decide) (by decide) s

def ramdiskBackup (img : Path) : Path := parent img ++ [img.getLastD "" ++ ".bak"]

def iniPath (img : Path) : Path := parent img ++ ["advancedFeatures.ini"]

def iniBackup (img : Path) : Path := parent img ++ ["advancedFeatures.ini.bak"]

section Steps

variable (env : Env)

def backupRamdisk (img : Path) : M Unit := do
  if !(← pathExists (ramdiskBackup img)) then cp img (ramdiskBackup img) else pure ()

def turnOffSystemAsRoot (img : Path) : M Unit := do
  let advFt ← readText env (iniPath img)
  if systemAsRootOn <:+: advFt then
    cp (iniPath img) (iniBackup img)
    writeText env (iniPath img) (pyReplace systemAsRootOn systemAsRootOff advFt)
  else pure ()

/-- The file steps of `patch_avd_ramdisk`, on `Path(args.ramdisk)`. -/
def patchAvdIni (ramdisk : Str) : M Unit := do
  backupRamdisk (toPath ramdisk)
  turnOffSystemAsRoot env (toPath ramdisk)

def backedUp (fs : Fs) (img : Path) : Fs :=
  if fs.pathExists (ramdiskBackup img) then fs else fs.cp img (ramdiskBackup img)

theorem backupRamdisk_apply (img : Path) (w : World) : backupRamdisk img w = .ok () { w with fs := backedUp w.fs img } := by
  cases h : w.fs.pathExists (ramdiskBackup img) <;> simp [backupRamdisk, backedUp, h]
  rfl

theorem backedUp_get_of_ne {fs : Fs} {img q : Path} (hq : q ≠ ramdiskBackup img) : (backedUp fs img).get q = fs.get q := by
  unfold backedUp
  split
  · rfl
  · exact fs.cp_get_of_ne hq

theorem backedUp_keeps_dirs (fs : Fs) (img q : Path) : (backedUp fs img).get q = some .dir ↔ fs.get q = some .dir := by
  unfold backedUp
  split
  · rfl
  · exact fs.cp_keeps_dirs _ _ q

theorem ramdiskBackup_ne_iniPath (img : Path) : ramdiskBackup img ≠ iniPath img := fun h => by
  have := congrArg (fun p : Path => (p.getLastD "").data.getLast?) h
  simp [ramdiskBackup, iniPath] at this

theorem iniBackup_ne_iniPath (img : Path) : iniBackup img ≠ iniPath img := by simp [iniBackup, iniPath]

theorem parent_iniBackup (img : Path) : parent (iniBackup img) = parent (iniPath img) := by
  simp [parent, iniBackup, iniPath]

theorem turnOffSystemAsRoot_ok {img : Path} {w w' : World} (h : turnOffSystemAsRoot env img w = .ok () w') :
    ∃ b s, w.fs.get (iniPath img) = some (.file b) ∧ env.codec.decode b = some s ∧
      if systemAsRootOn <:+: universalNewlines s then
        writeText env (iniPath img) (pyReplace systemAsRootOn systemAsRootOff (universalNewlines s))
          { w with fs := w.fs.cp (iniPath img) (iniBackup img) } = .ok () w'
      else w' = w := by
  obtain ⟨t, w₂, hr, hw⟩ := bind_eq_ok h
  obtain ⟨rfl, b, s, hb, hs, rfl⟩ := readText_eq_ok env w hr
  refine ⟨b, s, hb, hs, ?_⟩
  split at hw
  · rw [if_pos ‹_›]
    exact hw
  · rw [if_neg ‹_›]
    exact (EStateM.Result.ok.inj hw).2.symm

theorem turnOffSystemAsRoot_untouched (img : Path) :
    Effect (Frame fun q => q ≠ iniPath img ∧ q ≠ iniBackup img) (turnOffSystemAsRoot env img) :=
  (readText_effect env _).bind fun _ =>
    .ite ((cp_untouched fun _ hq => hq.2).bind fun _ => writeText_untouched env _ fun _ hq => hq.1) (.pure ())

end Steps

/-- Every run of the ini steps, returning or failing, changes nothing but `advancedFeatures.ini`,
its backup, and the ramdisk backup when none was there, the ramdisk named by a relative, plain
path. -/
theorem ini_patch_frame (env : Env) (ramdisk : Str) (w : World) (_plain : PlainPath ramdisk) {q : Path}
    (ini : q ≠ iniPath (toPath ramdisk))
    (iniBak : q ≠ iniBackup (toPath ramdisk))
    (backup : q ≠ ramdiskBackup (toPath ramdisk) ∨ w.fs.pathExists (ramdiskBackup (toPath ramdisk))) :
    (final (patchAvdIni env ramdisk w)).fs.get q = w.fs.get q := by
  rw [patchAvdIni, bind_ok (backupRamdisk_apply _ w)]
  refine (turnOffSystemAsRoot_untouched env _ _ q ⟨ini, iniBak⟩).trans ?_
  rcases backup with ne | there
  · exact backedUp_get_of_ne ne
  · simp only [backedUp, there, if_true]

def avdIniBytes : List UInt8 := "Vulkan = on\nSystemAsRoot = on\n".toList.map fun c => c.toNat.toUInt8

def avdTree : Fs where
  entries := [(["avd"], .dir), (["avd", "ramdisk.img"], .file [31, 139, 8]),
    (["avd", "advancedFeatures.ini"], .file avdIniBytes)]
  nodup := by decide
  rooted := by decide

def avdRamdisk : Str := "avd/ramdisk.img".toList

theorem avd_patch_keeps_image :
    (final (patchAvdIni sampleEnv avdRamdisk ⟨avdTree, []⟩)).fs.get ["avd", "ramdisk.img"] =
      avdTree.get ["avd", "ramdisk.img"] :=
  ini_patch_frame sampleEnv avdRamdisk _ (by decide) (by decide) (by decide) (.inl (by decide))

/-- Every run of the ini steps that returns leaves an `advancedFeatures.ini` that reads back
with system-as-root off: the text it read, rewritten if it turned system-as-root on. -/
theorem ini_patch_turns_off_system_as_root (env : Env) (ramdisk : Str) (w : World) {w' : World}
    (h : patchAvdIni env ramdisk w = .ok () w') :
    ∃ t₀, readText env (iniPath (toPath ramdisk)) w = .ok t₀ w ∧
      readText env (iniPath (toPath ramdisk)) w' =
        .ok (if systemAsRootOn <:+: t₀ then pyReplace systemAsRootOn systemAsRootOff t₀ else t₀) w' ∧
      ¬ systemAsRootOn <:+: (if systemAsRootOn <:+: t₀ then pyReplace systemAsRootOn systemAsRootOff t₀ else t₀) := by
  rw [patchAvdIni, bind_ok (backupRamdisk_apply _ w)] at h
  obtain ⟨b, s, hb₁, hs, step⟩ := turnOffSystemAsRoot_ok env h
  have hb : w.fs.get (iniPath (toPath ramdisk)) = some (.file b) :=
    (backedUp_get_of_ne (ramdiskBackup_ne_iniPath _).symm).symm.trans hb₁
  refine ⟨_, readText_file env w hb hs, ?_⟩
  split_ifs at step ⊢ with turnedOn
  · obtain ⟨b', enc, -, get⟩ := writeText_eq_ok env _ step
    have cr : '\r' ∉ pyReplace systemAsRootOn systemAsRootOff (universalNewlines s) := fun hm =>
      (mem_pyReplace hm).elim (cr_not_mem_universalNewlines s) (by decide)
    refine ⟨?_, not_infix_systemAsRoot _⟩
    rw [← universalNewlines_writeNewlines env.isWindows cr]
    exact readText_file env w' (by simp [get]) (env.codec.decode_encode _ _ enc)
  · subst step
    exact ⟨readText_file env _ hb₁ hs, turnedOn⟩

theorem avd_patch_turns_off :
    ∃ w', patchAvdIni sampleEnv avdRamdisk ⟨avdTree, []⟩ = .ok () w' ∧
      ∃ t, readText sampleEnv (iniPath (toPath avdRamdisk)) w' = .ok t w' ∧ ¬ systemAsRootOn <:+: t := by
  obtain ⟨w', h⟩ : ∃ w', patchAvdIni sampleEnv avdRamdisk ⟨avdTree, []⟩ = .ok () w' := ⟨_, rfl⟩
  obtain ⟨_, -, back, off⟩ := ini_patch_turns_off_system_as_root sampleEnv avdRamdisk _ h
  exact ⟨w', h, _, back, off⟩

/-- An `advancedFeatures.ini` that turned system-as-root on is kept, as it was, in
`advancedFeatures.ini.bak`, unless a directory stands there. -/
theorem ini_patch_keeps_original (env : Env) (ramdisk : Str) (w : World) {w' : World}
    (h : patchAvdIni env ramdisk w = .ok () w') {b : List UInt8} (hb : w.fs.get (iniPath (toPath ramdisk)) = some (.file b))
    (turnedOn : ∃ s, env.codec.decode b = some s ∧ systemAsRootOn <:+: universalNewlines s)
    (notDir : w.fs.get (iniBackup (toPath ramdisk)) ≠ some .dir) :
    w'.fs.get (iniBackup (toPath ramdisk)) = some (.file b) := by
  rw [patchAvdIni, bind_ok (backupRamdisk_apply _ w)] at h
  obtain ⟨b₁, s, hb₁, hs, step⟩ := turnOffSystemAsRoot_ok env h
  obtain ⟨s', hs', on'⟩ := turnedOn
  have hb' : (backedUp w.fs (toPath ramdisk)).get (iniPath (toPath ramdisk)) = some (.file b) :=
    (backedUp_get_of_ne (ramdiskBackup_ne_iniPath _).symm).trans hb
  obtain rfl : b = b₁ := by simpa [hb'] using hb₁
  obtain rfl : s' = s := Option.some.inj (hs'.symm.trans hs)
  rw [if_pos on'] at step
  obtain ⟨_, -, -, get⟩ := writeText_eq_ok env _ step
  rw [get, if_neg (iniBackup_ne_iniPath _)]
  refine Fs.cp_copies _ hb' (mt (backedUp_keeps_dirs _ _ _).mp notDir) ?_ (iniBackup_ne_iniPath _)
  rw [parent_iniBackup]
  exact Fs.parent_dir _ hb' (by simp [iniPath])

theorem avd_patch_keeps_ini :
    ∃ w', patchAvdIni sampleEnv avdRamdisk ⟨avdTree, []⟩ = .ok () w' ∧
      w'.fs.get (iniBackup (toPath avdRamdisk)) = some (.file avdIniBytes) := by
  obtain ⟨w', h⟩ : ∃ w', patchAvdIni sampleEnv avdRamdisk ⟨avdTree, []⟩ = .ok () w' := ⟨_, rfl⟩
  exact ⟨w', h, ini_patch_keeps_original sampleEnv avdRamdisk _ h
    (show avdTree.get (iniPath (toPath avdRamdisk)) = some (.file avdIniBytes) from rfl) ⟨_, rfl, by decide⟩
    (by decide)⟩

end MagiskBuild
