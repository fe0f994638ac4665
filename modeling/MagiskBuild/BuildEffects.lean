import MagiskBuild.Effects
import MagiskBuild.Relocate

/-!
What a `binary` run does to the tree, returning or failing. Each program and each call is stated
once: which directories it keeps (`BuildKeeps`) and which paths it leaves as they were; every
function of `build_binary` then has both by composition. A binary run changes nothing but what
cargo writes, `native/libs`, `native/obj` and `native/out`. When every `native/out/<arch>` is a
directory, no artifact's two places are, and ndk-build makes none in `native/libs`, every
ndk-build pass ends with its artifacts moved: a run that returns leaves none in `native/libs`.
-/
namespace MagiskBuild

section Generic

variable (env : Env) {R : Fs → Fs → Prop} [IsRefl Fs R]

theorem checkNdk_same (cfg : Config) (w : World) : (final (checkNdk env cfg w)).fs = w.fs := by
  unfold checkNdk
  rcases readText_keeps env (env.ndkPath ++ ["ONDK_VERSION"]) w with ⟨s, h⟩ | ⟨e, h⟩ <;> simp only [h]
  · split <;> rfl
  · rfl

theorem checkNdk_effect (cfg : Config) : Effect R (checkNdk env cfg) := .of_same (checkNdk_same env cfg)

variable [IsTrans Fs R]

theorem writeIfDiff_effect {p : Path} (text : Str) (h : ∀ fs fs' b, fs.write p b = .ok fs' → R fs fs') :
    Effect R (writeIfDiff env p text) :=
  ((pathExists_effect p).bind fun _ => .ite ((readText_effect env p).bind fun _ => .pure _) (.pure _)).bind
    fun _ => .ite (writeText_effect env text h) (.pure ())

theorem dumpPreload_effect {arch : String} (h : ∀ fs fs' b, fs.write (binHeaderPath arch) b = .ok fs' → R fs fs') :
    Effect R (dumpPreload env arch) :=
  (readBytes_effect _).bind fun _ => writeIfDiff_effect env _ h

theorem relocate_effect (h : ∀ arch name fs, R fs (fs.mv (libsPath arch name) (outPath arch name))) :
    Effect R relocate :=
  .forM fun _ _ => .forM fun _ _ => mv_effect (h _ _)

end Generic

/-- Where a binary run keeps every directory: off what cargo writes, outside the trees ndk-build
writes in, and off the path gcc writes the ELF cleaner to. -/
def BuildKeeps (q : Path) : Prop :=
  ¬ CargoWrites q ∧ ¬ ["native", "libs"] <+: q ∧ ¬ ["native", "obj"] <+: q ∧ q ≠ nativeOut ++ ["elf-cleaner"]

instance : DecidablePred BuildKeeps := fun q =>
  inferInstanceAs (Decidable (¬ CargoWrites q ∧ ¬ ["native", "libs"] <+: q ∧ ¬ ["native", "obj"] <+: q ∧
    q ≠ nativeOut ++ ["elf-cleaner"]))

section Dirs

variable (env : Env)

theorem runCargo_dirs (release verbose : Bool) (t triple : String) :
    Effect (KeepsDirs BuildKeeps) (runCargo env (cargoArgs release verbose t triple)) :=
  execv_effect env fun _ _ h => .of_frame (h ⟨_, _, _, _, rfl⟩) fun _ hk => hk.1

theorem cargoArch_dirs (targets : List String) (release verbose : Bool) (arch triple : String) :
    Effect (KeepsDirs BuildKeeps) (cargoArch env targets release verbose arch triple) :=
  (Effect.forM fun _ _ => (runCargo_dirs env _ _ _ _).bind fun _ => .ite (.error _) (.pure _)).bind fun _ =>
    (mkdirExistOk_dirs _).bind fun _ =>
    .forM fun _ _ => mv_dirs fun _ hk => .inl fun pre => hk.1 (.inl ((List.prefix_append cargoTree _).trans pre))

theorem runCargoBuild_dirs (target : List String) (release verbose : Bool) :
    Effect (KeepsDirs BuildKeeps) (runCargoBuild env target release verbose) :=
  (mkdirExistOk_dirs _).bind fun _ => .ite (.pure _) (.forM fun _ _ => cargoArch_dirs env _ _ _ _ _)

theorem relocate_dirs : Effect (KeepsDirs BuildKeeps) relocate :=
  relocate_effect fun _ _ fs _ hk d =>
    fs.mv_keeps_dir d (.inl fun pre => hk.2.1 ((List.prefix_append ["native", "libs"] _).trans pre))

theorem runNdkBuild_dirs (flags : String) : Effect (KeepsDirs BuildKeeps) (runNdkBuild env flags) :=
  (chdir_effect _).bind fun _ =>
    (execv_effect env fun _ _ h => .of_frame (R := fun q => ["native", "libs"] <+: q ∨ ["native", "obj"] <+: q)
      (fun q r => h q (r ∘ .inl) (r ∘ .inr)) fun _ hk r => r.elim hk.2.1 hk.2.2.1).bind fun _ =>
    .ite_bind (.error _) (.pure _) fun _ => relocate_dirs

theorem elfCleaner_dirs : Effect (KeepsDirs BuildKeeps) (elfCleaner env) :=
  .ite (.pure _) ((pathExists_effect _).bind fun _ => .ite ((Effect.pure ()).bind fun _ => .pure _)
    ((execv_effect env fun _ _ h => .of_frame h fun _ hk => hk.2.2.2).bind fun _ =>
      (Effect.pure ()).bind fun _ => .pure _))

theorem cleanElf_dirs : Effect (KeepsDirs BuildKeeps) (cleanElf env) :=
  (elfCleaner_dirs env).bind fun _ =>
    (execv_effect env fun _ _ h => .of_iff (elfCleanerCmd_dirs h)).bind fun _ => .pure _

theorem writeIfDiff_dirs {K : Path → Prop} (p : Path) (text : Str) : Effect (KeepsDirs K) (writeIfDiff env p text) :=
  writeIfDiff_effect env text fun fs _ _ h => .of_iff (fs.write_keeps_dirs h)

theorem dumpFlagHeader_dirs (cfg : Config) (release : Bool) :
    Effect (KeepsDirs BuildKeeps) (dumpFlagHeader env cfg release) :=
  (makedirs_dirs _).bind fun _ => writeIfDiff_dirs env _ _

theorem dumpBinHeader_dirs : Effect (KeepsDirs BuildKeeps) (dumpBinHeader env) :=
  (makedirs_dirs _).bind fun _ => .forM fun _ _ => (readBytes_effect _).bind fun _ => writeIfDiff_dirs env _ _

theorem buildTargets_dirs (cfg : Config) (release verbose : Bool) (ts : List String) :
    Effect (KeepsDirs BuildKeeps) (buildTargets env cfg release verbose ts) :=
  (chdir_effect _).bind fun _ => (runCargoBuild_dirs env ts release verbose).bind fun _ =>
    (dumpFlagHeader_dirs env cfg release).bind fun _ =>
    .ite_bind (runNdkBuild_dirs env _) (.pure ()) fun _ => .ite_bind (dumpBinHeader_dirs env) (.pure ()) fun _ =>
    .ite_bind (runNdkBuild_dirs env _) (.pure ()) fun _ => .ite_bind (cleanElf_dirs env) (.pure ()) fun _ =>
    .ite (runNdkBuild_dirs env _) (.pure ())

theorem buildBinary_dirs (cfg : Config) (args : Args) : Effect (KeepsDirs BuildKeeps) (buildBinary env cfg args) :=
  (checkNdk_effect env cfg).bind fun _ => by
    split
    · exact .pure ()
    · exact buildTargets_dirs env cfg _ _ _

end Dirs

def CargoFree (q : Path) : Prop := ¬ CargoWrites q ∧ ∀ arch t, Apart (rsLib arch t) q

def OffBuild (q : Path) : Prop := ¬ CargoWrites q ∧ ¬ nativeOut <+: q ∧ q ≠ ["native"]

/-- What no part of a binary run writes: also outside `native/libs` and `native/obj`. -/
def BuildFree (q : Path) : Prop := OffBuild q ∧ ¬ ["native", "libs"] <+: q ∧ ¬ ["native", "obj"] <+: q

instance : DecidablePred BuildFree := fun q =>
  inferInstanceAs (Decidable ((¬ CargoWrites q ∧ ¬ nativeOut <+: q ∧ q ≠ ["native"]) ∧
    ¬ ["native", "libs"] <+: q ∧ ¬ ["native", "obj"] <+: q))

theorem prefix_nativeOut {q : Path} (h : q <+: nativeOut) : q = [] ∨ q = ["native"] ∨ q = nativeOut := by
  obtain ⟨t, ht⟩ := h
  rcases q with _ | ⟨a, _ | ⟨b, _ | ⟨c, q⟩⟩⟩ <;> simp_all [nativeOut]

theorem OffBuild.apart {q p : Path} (h : OffBuild q) (pre : nativeOut <+: p) : Apart p q := by
  refine ⟨fun h' => h.2.1 (pre.trans h'), fun hq => ?_⟩
  rcases List.prefix_or_prefix_of_prefix hq pre with out | out
  · rcases prefix_nativeOut out with rfl | rfl | rfl
    · rfl
    · exact absurd rfl h.2.2
    · exact absurd (List.prefix_refl _) h.2.1
  · exact absurd out h.2.1

theorem OffBuild.cargoFree {q : Path} (h : OffBuild q) : CargoFree q := ⟨h.1, fun _ _ => h.apart ⟨_, rfl⟩⟩

theorem elfCleanerFiles_out : ∀ f ∈ elfCleanerFiles, nativeOut <+: f := by decide

theorem OffBuild.elf {q : Path} (h : OffBuild q) : q ≠ nativeOut ++ ["elf-cleaner"] ∧ q ∉ elfCleanerFiles :=
  ⟨fun e => h.2.1 (e ▸ List.prefix_append _ _), fun c => h.2.1 (elfCleanerFiles_out q c)⟩

section Untouched

variable (env : Env) {P : Path → Prop}

theorem gccCmd_untouched {out : Path} {fs fs' : Fs} (h : (Cmd.gcc out).Allows fs fs') (hP : ∀ q, P q → q ≠ out) :
    Frame P fs fs' := fun q hq => h q (hP q hq)

theorem ndkBuildCmd_untouched {flags : String} {jobs : Nat} {fs fs' : Fs} (h : (Cmd.ndkBuild flags jobs).Allows fs fs')
    (hP : ∀ q, P q → ¬ ["native", "libs"] <+: q ∧ ¬ ["native", "obj"] <+: q) : Frame P fs fs' :=
  fun q hq => h q (hP q hq).1 (hP q hq).2

theorem elfCleanerCmd_untouched {exe : Path} {args : List String} {files : List Path} {fs fs' : Fs}
    (h : (Cmd.elfCleaner exe args files).Allows fs fs') (hP : ∀ q, P q → q ∉ files) : Frame P fs fs' :=
  fun q hq => (h q).resolve_right fun c => hP q hq c.1

theorem runCargo_untouched (hP : ∀ q, P q → ¬ CargoWrites q) (release verbose : Bool) (t triple : String) :
    Effect (Frame P) (runCargo env (cargoArgs release verbose t triple)) :=
  execv_effect env fun _ _ h q hq => h ⟨_, _, _, _, rfl⟩ q (hP q hq)

theorem cargoArch_untouched (hP : ∀ q, P q → CargoFree q) (targets : List String) (release verbose : Bool)
    (arch triple : String) : Effect (Frame P) (cargoArch env targets release verbose arch triple) :=
  (Effect.forM fun _ _ => (runCargo_untouched env (fun q hq => (hP q hq).1) _ _ _ _).bind fun _ =>
    .ite (.error _) (.pure _)).bind fun _ =>
    (mkdirExistOk_untouched fun q hq =>
      ((hP q hq).2 arch "").ne (List.prefix_append (nativeOut ++ [arch]) _) (by simp [nativeOut])).bind fun _ =>
    .forM fun _ _ => mv_untouched fun q hq =>
      ⟨fun pre => (hP q hq).1 (.inl ((List.prefix_append cargoTree _).trans pre)), (hP q hq).2 _ _⟩

theorem runCargoBuild_untouched (hP : ∀ q, P q → CargoFree q) (target : List String) (release verbose : Bool) :
    Effect (Frame P) (runCargoBuild env target release verbose) :=
  (mkdirExistOk_untouched fun q hq => ((hP q hq).2 "" "").ne ⟨_, rfl⟩ (by simp [nativeOut])).bind fun _ =>
    .ite (.pure _) (.forM fun _ _ => cargoArch_untouched env hP _ _ _ _ _)

theorem dumpFlagHeader_untouched (hP : ∀ q, P q → Apart nativeGenPath q) (cfg : Config) (release : Bool) :
    Effect (Frame P) (dumpFlagHeader env cfg release) :=
  (makedirs_untouched fun q hq => (hP q hq).2).bind fun _ => writeIfDiff_effect env _ fun _ _ _ h =>
    (write_frame h).mono fun q hq e => (hP q hq).1 (e ▸ List.prefix_append _ _)

theorem dumpBinHeader_untouched (hP : ∀ q, P q → Apart nativeGenPath q) : Effect (Frame P) (dumpBinHeader env) :=
  (makedirs_untouched fun q hq => (hP q hq).2).bind fun _ => .forM fun _ _ => dumpPreload_effect env fun _ _ _ h =>
    (write_frame h).mono fun q hq e => (hP q hq).1 (e ▸ List.prefix_append _ _)

theorem elfCleaner_untouched (hP : ∀ q, P q → q ≠ nativeOut ++ ["elf-cleaner"]) : Effect (Frame P) (elfCleaner env) :=
  .ite (.pure _) ((pathExists_effect _).bind fun _ => .ite ((Effect.pure ()).bind fun _ => .pure _)
    ((execv_effect env fun _ _ h => gccCmd_untouched h hP).bind fun _ => (Effect.pure ()).bind fun _ => .pure _))

theorem cleanElf_untouched (hP : ∀ q, P q → q ≠ nativeOut ++ ["elf-cleaner"] ∧ q ∉ elfCleanerFiles) :
    Effect (Frame P) (cleanElf env) :=
  (elfCleaner_untouched env fun q hq => (hP q hq).1).bind fun _ =>
    (execv_effect env fun _ _ h => elfCleanerCmd_untouched h fun q hq => (hP q hq).2).bind fun _ => .pure _

variable (hP : ∀ q, P q → BuildFree q)

include hP

theorem runNdkBuild_untouched (flags : String) : Effect (Frame P) (runNdkBuild env flags) :=
  (chdir_effect _).bind fun _ =>
    (execv_effect env fun _ _ h => ndkBuildCmd_untouched h fun q hq => (hP q hq).2).bind fun _ =>
    .ite_bind (.error _) (.pure _) fun _ => relocate_effect fun _ _ _ => (mv_frame _ _).mono fun q hq =>
      ⟨fun h => (hP q hq).2.1 ((List.prefix_append ["native", "libs"] _).trans h), (hP q hq).1.apart ⟨_, rfl⟩⟩

theorem buildTargets_untouched (cfg : Config) (release verbose : Bool) (ts : List String) :
    Effect (Frame P) (buildTargets env cfg release verbose ts) :=
  have off : ∀ q, P q → OffBuild q := fun q hq => (hP q hq).1
  (chdir_effect _).bind fun _ =>
    (runCargoBuild_untouched env (fun q hq => (off q hq).cargoFree) ts release verbose).bind fun _ =>
    (dumpFlagHeader_untouched env (fun q hq => (off q hq).apart ⟨_, rfl⟩) cfg release).bind fun _ =>
    .ite_bind (runNdkBuild_untouched env hP _) (.pure ()) fun _ =>
    .ite_bind (dumpBinHeader_untouched env fun q hq => (off q hq).apart ⟨_, rfl⟩) (.pure ()) fun _ =>
    .ite_bind (runNdkBuild_untouched env hP _) (.pure ()) fun _ =>
    .ite_bind (cleanElf_untouched env fun q hq => (off q hq).elf) (.pure ()) fun _ =>
    .ite (runNdkBuild_untouched env hP _) (.pure ())

theorem buildBinary_untouched (cfg : Config) (args : Args) : Effect (Frame P) (buildBinary env cfg args) :=
  (checkNdk_effect env cfg).bind fun _ => by
    split
    · exact .pure ()
    · exact buildTargets_untouched env hP cfg _ _ _

end Untouched

/-- A binary run, returning or failing, changes no path outside `native/libs`, `native/obj` and
`native/out` that cargo does not write, but `native` itself: not the sources, the app, the SDK or
the configuration. -/
theorem binary_run_changes_only_build_trees (env : Env) (cfg : Config) (args : Args) (w : World) {q : Path}
    (free : BuildFree q) : (final (buildBinary env cfg args w)).fs.get q = w.fs.get q :=
  buildBinary_untouched env (fun _ h => h) cfg args w q free

theorem binary_run_keeps_manifest :
    (final (buildBinary bbEnv bbConfig bbArgs ⟨archTree, []⟩)).fs.get cargoManifest =
      archTree.get cargoManifest :=
  binary_run_changes_only_build_trees bbEnv bbConfig bbArgs ⟨archTree, []⟩ (by decide)

/-- The two places of each artifact: where ndk-build leaves it and where `run_ndk_build` moves it. -/
def Slot (q : Path) : Prop := ∃ arch ∈ archs, ∃ name ∈ ndkArtifacts, q = libsPath arch name ∨ q = outPath arch name

def LibsSlot (q : Path) : Prop := ∃ arch ∈ archs, ∃ name ∈ ndkArtifacts, q = libsPath arch name

def Ready (fs : Fs) : Prop := ArchDirs fs ∧ ∀ q, Slot q → fs.get q ≠ some .dir

def LibsClear (fs : Fs) : Prop := ∀ arch ∈ archs, ∀ name ∈ ndkArtifacts, fs.isFile (libsPath arch name) = false

/-- After the passes so far: `Ready`, and once a pass has run (`c`), nothing left in `native/libs`. -/
def PassInv (c : Prop) (fs : Fs) : Prop := Ready fs ∧ (c → LibsClear fs)

theorem rsName_last (t : String) : ("lib" ++ t ++ "-rs.a").toList.getLast? = some 'a' := by
  rw [List.getLast?_eq_getLast _ (by simp [String.toList])]
  simp [String.toList]

theorem rsName_ne (t : String) : ∀ n ∈ ndkArtifacts, "lib" ++ t ++ "-rs.a" ≠ n := by
  have names : ∀ n ∈ ndkArtifacts, n.toList.getLast? ≠ some 'a' := by decide
  exact fun n hn e => names n hn (e ▸ rsName_last t)

theorem slots_off : ∀ arch ∈ archs, ∀ name ∈ ndkArtifacts, ∀ q ∈ [libsPath arch name, outPath arch name],
    ¬ CargoWrites q ∧ Apart nativeGenPath q ∧ q ≠ nativeOut ++ ["elf-cleaner"] := by decide

theorem Slot.off {q : Path} (h : Slot q) :
    ¬ CargoWrites q ∧ Apart nativeGenPath q ∧ q ≠ nativeOut ++ ["elf-cleaner"] := by
  obtain ⟨arch, ha, name, hn, e⟩ := h
  exact slots_off arch ha name hn q (by rcases e with rfl | rfl <;> simp)

theorem Slot.cargoFree {q : Path} (h : Slot q) : CargoFree q := by
  refine ⟨h.off.1, fun a t => ?_⟩
  obtain ⟨arch, _, name, hn, rfl | rfl⟩ := h
  · exact ⟨fun pre => by simp [rsLib, libsPath, nativeOut] at pre, fun pre => by simp [rsLib, libsPath, nativeOut] at pre⟩
  · have same : ∀ {l l' : Path}, l <+: l' → l.length = l'.length → l = l' := fun pre len => pre.eq_of_length len
    refine ⟨fun pre => ?_, fun pre => ?_⟩
    · have e := same pre (by simp [rsLib, outPath])
      simp only [rsLib, outPath, List.append_cancel_left_eq, List.cons.injEq, and_true] at e
      exact absurd e.2 (rsName_ne t name hn)
    · have e := same pre (by simp [rsLib, outPath])
      simp only [rsLib, outPath, List.append_cancel_left_eq, List.cons.injEq, and_true] at e
      exact absurd e.2.symm (rsName_ne t name hn)

theorem LibsSlot.off {q : Path} (h : LibsSlot q) : OffBuild q := by
  obtain ⟨arch, ha, name, hn, rfl⟩ := h
  exact ⟨(slots_off arch ha name hn _ (by simp)).1, by simp [libsPath, nativeOut], by simp [libsPath]⟩

theorem archDir_buildKeeps : ∀ arch ∈ archs, BuildKeeps (nativeOut ++ [arch]) := by decide

theorem Fs.isFile_congr {fs fs' : Fs} {p : Path} (h : fs'.get p = fs.get p) : fs'.isFile p = fs.isFile p := by
  simp only [Fs.isFile, h]

theorem LibsClear.of_frame {fs fs' : Fs} (h : Frame LibsSlot fs fs') (c : LibsClear fs) : LibsClear fs' :=
  fun arch ha name hn => (Fs.isFile_congr (h _ ⟨arch, ha, name, hn, rfl⟩)).trans (c arch ha name hn)

theorem cleanElf_noNewDirs (env : Env) : Effect (NoNewDirs Slot) (cleanElf env) :=
  ((elfCleaner_untouched env fun _ h => h.off.2.2).mono fun _ _ h => .of_frame h).bind fun _ =>
    (execv_effect env fun _ _ h => .of_iff (elfCleanerCmd_dirs h)).bind fun _ => .pure _

theorem passInv_step {α : Type} {act : M α} (hk : Effect (KeepsDirs BuildKeeps) act)
    (hn : Effect (NoNewDirs Slot) act) (hf : Effect (Frame LibsSlot) act) (c : Prop) :
    Triple (PassInv c) act (PassInv c) :=
  .of_effect ((hk.and hn).and hf) fun _ _ h inv =>
    ⟨⟨fun arch ha => h.1.1 _ (archDir_buildKeeps arch ha) (inv.1.1 arch ha), fun q hq d => inv.1.2 q hq (h.1.2 q hq d)⟩,
      fun hc => (inv.2 hc).of_frame h.2⟩

theorem passInv_of_frame {α : Type} {act : M α} (hk : Effect (KeepsDirs BuildKeeps) act)
    (hs : Effect (Frame Slot) act) (c : Prop) : Triple (PassInv c) act (PassInv c) :=
  passInv_step hk (hs.mono fun _ _ h => .of_frame h)
    (hs.mono fun _ _ h => h.mono fun _ ⟨a, ha, n, hn, e⟩ => ⟨a, ha, n, hn, .inl e⟩) c

section Passes

variable (env : Env)

theorem runNdkBuild_eq_ok {flags : String} {w w' : World} (h : runNdkBuild env flags w = .ok () w') :
    ∃ fs₁, env.toolchain.run (.ndkBuild (ndkFlags flags) env.cpuCount) w.fs = some (0, fs₁) ∧
      relocate ⟨fs₁, w.log ++ [.exec (.ndkBuild (ndkFlags flags) env.cpuCount) 0]⟩ = .ok () w' := by
  obtain ⟨_, w₁, hc, rest⟩ := bind_eq_ok h
  obtain rfl : w₁ = w := by
    unfold chdir at hc
    split at hc <;> cases hc
    rfl
  obtain ⟨st, w₂, he, rest⟩ := bind_eq_ok rest
  obtain ⟨run, log⟩ := execv_eq_ok env w₁ he
  obtain rfl : st = 0 := by
    by_contra hne
    simp [hne, error] at rest
  simp only [ne_eq, not_true_eq_false, if_false, bind_apply, pure_apply] at rest
  exact ⟨_, run, by rw [← log]; exact rest⟩

theorem relocate_ready {w : World} (r : Ready w.fs) :
    ∃ fs', relocate w = .ok () { w with fs := fs' } ∧ Ready fs' ∧ LibsClear fs' := by
  have libs : ∀ arch ∈ archs, ∀ name ∈ ndkArtifacts, w.fs.get (libsPath arch name) ≠ some .dir :=
    fun arch ha name hn => r.2 _ ⟨arch, ha, name, hn, .inl rfl⟩
  have outs : ∀ arch ∈ archs, ∀ name ∈ ndkArtifacts, w.fs.get (outPath arch name) ≠ some .dir :=
    fun arch ha name hn => r.2 _ ⟨arch, ha, name, hn, .inr rfl⟩
  obtain ⟨fs', run, alone, frame⟩ := relocate_places r.1 outs
  have dirs : ∀ q, fs'.get q = some .dir ↔ w.fs.get q = some .dir := fun q => by
    by_cases hq : ∃ arch ∈ archs, ∃ name ∈ ndkArtifacts, libsPath arch name <+: q ∨ outPath arch name <+: q
    · obtain ⟨arch, ha, name, hn, pre⟩ := hq
      rw [alone arch ha name hn q pre]
      exact w.fs.mv_keeps_dirs _ (libs arch ha name hn) q
    · push_neg at hq
      rw [frame q hq]
  refine ⟨fs', run, ⟨fun arch ha => (dirs _).mpr (r.1 arch ha), fun q hq d => r.2 q hq ((dirs q).mp d)⟩,
    fun arch ha name hn => ?_⟩
  have par : w.fs.get (parent (outPath arch name)) = some .dir := by simpa [parent, outPath] using r.1 arch ha
  simp [Fs.isFile, alone arch ha name hn _ (.inl (List.prefix_refl _)),
    w.fs.mv_get_src (libs arch ha name hn) (outs arch ha name hn) par (by simp [libsPath, outPath, nativeOut])]

theorem runNdkBuild_ready (files : NdkFiles env) (flags : String) :
    Triple Ready (runNdkBuild env flags) fun fs => Ready fs ∧ LibsClear fs := fun w _ w' h r => by
  obtain ⟨fs₁, run, moved⟩ := runNdkBuild_eq_ok env h
  have r₁ : Ready fs₁ := ⟨fun arch ha => (ndkBuild_keeps_out run ⟨[arch], rfl⟩).trans (r.1 arch ha), by
    rintro q ⟨arch, ha, name, hn, rfl | rfl⟩ d
    · exact r.2 _ ⟨arch, ha, name, hn, .inl rfl⟩ (files _ _ _ _ _ run arch ha name hn d)
    · exact r.2 _ ⟨arch, ha, name, hn, .inr rfl⟩ ((ndkBuild_keeps_out run ⟨[arch, name], rfl⟩).symm.trans d)⟩
  obtain ⟨fs', run', ready, clear⟩ := relocate_ready (w := ⟨fs₁, _⟩) r₁
  rw [run'] at moved
  cases moved
  exact ⟨ready, clear⟩

theorem runNdkBuild_passInv (files : NdkFiles env) (flags : String) (c c' : Prop) :
    Triple (PassInv c) (runNdkBuild env flags) (PassInv c') :=
  (runNdkBuild_ready env files flags).conseq (fun _ h => h.1) fun _ h => ⟨h.1, fun _ => h.2⟩

theorem skip_passInv {c d : Prop} (hd : ¬ d) : Triple (PassInv c) (pure () : M Unit) (PassInv (c ∨ d)) :=
  .pure (fun _ h => ⟨h.1, fun hc => h.2 (hc.resolve_right hd)⟩) ()

theorem buildTargets_passInv (files : NdkFiles env) (cfg : Config) (release verbose : Bool) (ts : List String) :
    Triple Ready (buildTargets env cfg release verbose ts)
      (PassInv (((False ∨ firstFlags ts ≠ "") ∨ secondFlags ts ≠ "") ∨ ts.contains "busybox" = true)) :=
  have gen : ∀ q, Slot q → Apart nativeGenPath q := fun _ h => h.off.2.1
  have passes : Triple (PassInv False) (buildTargets env cfg release verbose ts)
      (PassInv (((False ∨ firstFlags ts ≠ "") ∨ secondFlags ts ≠ "") ∨ ts.contains "busybox" = true)) :=
    (passInv_of_frame (chdir_effect _) (chdir_effect _) _).bind fun _ =>
    (passInv_of_frame (runCargoBuild_dirs env ts release verbose)
      (runCargoBuild_untouched env (fun _ h => h.cargoFree) ts release verbose) _).bind fun _ =>
    (passInv_of_frame (dumpFlagHeader_dirs env cfg release) (dumpFlagHeader_untouched env gen cfg release) _).bind
    fun _ => .ite_bind (fun _ => runNdkBuild_passInv env files _ _ _) skip_passInv fun _ =>
    .ite_bind (fun _ => passInv_of_frame (dumpBinHeader_dirs env) (dumpBinHeader_untouched env gen) _)
      (fun _ => .pure (fun _ h => h) ()) fun _ =>
    .ite_bind (fun _ => runNdkBuild_passInv env files _ _ _) skip_passInv fun _ =>
    .ite_bind (fun _ => passInv_step (cleanElf_dirs env) (cleanElf_noNewDirs env)
        (cleanElf_untouched env fun _ h => h.off.elf) _)
      (fun _ => .pure (fun _ h => h) ()) fun _ =>
    .ite (fun _ => runNdkBuild_passInv env files _ _ _) skip_passInv
  passes.conseq (fun _ h => ⟨h, False.elim⟩) fun _ h => h

theorem firstFlags_ne_empty {ts : List String} (h : ts.contains "magisk" ∨ ts.contains "magiskpolicy" ∨
    ts.contains "magiskinit" ∨ ts.contains "resetprop") : firstFlags ts ≠ "" := by
  unfold firstFlags
  generalize ts.contains "magisk" = a, ts.contains "magiskpolicy" = b, ts.contains "magiskinit" = c,
    ts.contains "resetprop" = d at h ⊢
  revert a b c d
  decide

theorem secondFlags_ne_empty {ts : List String} (h : ts.contains "magiskinit" ∨ ts.contains "magiskboot") :
    secondFlags ts ≠ "" := by
  unfold secondFlags
  generalize ts.contains "magiskinit" = a, ts.contains "magiskboot" = b at h ⊢
  revert a b
  decide

theorem selectTargets_known {target ts : List String} (h : selectTargets target = some ts) :
    ∃ t ∈ ts, t ∈ supportTargets := by
  unfold selectTargets at h
  split at h
  · cases h
    exact ⟨"magisk", by decide, by decide⟩
  · dsimp only at h
    split at h
    · cases h
    · rename_i picked
      cases h
      obtain ⟨t, ht⟩ := List.exists_mem_of_ne_nil _ picked
      exact ⟨t, ht, (List.mem_filter.mp ht).1⟩

theorem selected_runs_a_pass {target ts : List String} (h : selectTargets target = some ts) :
    ((False ∨ firstFlags ts ≠ "") ∨ secondFlags ts ≠ "") ∨ ts.contains "busybox" = true := by
  obtain ⟨t, ht, known⟩ := selectTargets_known h
  have hc : ts.contains t = true := List.elem_iff.mpr ht
  simp [supportTargets, defaultTargets] at known
  rcases known with rfl | rfl | rfl | rfl | rfl | rfl
  · exact .inl (.inl (.inr (firstFlags_ne_empty (.inl hc))))
  · exact .inl (.inl (.inr (firstFlags_ne_empty (.inr (.inr (.inl hc))))))
  · exact .inl (.inr (secondFlags_ne_empty (.inr hc)))
  · exact .inl (.inl (.inr (firstFlags_ne_empty (.inr (.inl hc)))))
  · exact .inr hc
  · exact .inl (.inl (.inr (firstFlags_ne_empty (.inr (.inr (.inr hc))))))

theorem buildBinary_passInv (files : NdkFiles env) (cfg : Config) (args : Args) :
    Triple Ready (buildBinary env cfg args) (PassInv (selectTargets args.target ≠ none)) :=
  (Triple.of_same (checkNdk_same env cfg)).bind fun _ => by
    split
    · rename_i none
      exact .pure (fun _ h => ⟨h, fun picked => absurd none picked⟩) ()
    · rename_i ts picked
      exact (buildTargets_passInv env files cfg _ _ ts).conseq (fun _ h => h)
        fun _ h => ⟨h.1, fun _ => h.2 (selected_runs_a_pass picked)⟩

end Passes

/-- On a tree where every `native/out/<arch>` is a directory and no artifact's place in
`native/libs/<arch>` or `native/out/<arch>` is one, with an ndk-build that makes no directory in
the first, a binary run that selects a target either fails or leaves no artifact in
`native/libs/<arch>`: each ndk-build pass ends by moving all it built, whichever targets are
asked for. -/
theorem binary_run_empties_libs (env : Env) (cfg : Config) (args : Args) (w : World) (files : NdkFiles env)
    (dirs : ArchDirs w.fs)
    (slots : ∀ arch ∈ archs, ∀ name ∈ ndkArtifacts,
      w.fs.get (libsPath arch name) ≠ some .dir ∧ w.fs.get (outPath arch name) ≠ some .dir)
    (picked : selectTargets args.target ≠ none) :
    (∃ e w', buildBinary env cfg args w = .error e w') ∨ LibsClear (final (buildBinary env cfg args w)).fs := by
  have ready : Ready w.fs := ⟨dirs, by
    rintro q ⟨arch, ha, name, hn, rfl | rfl⟩
    · exact (slots arch ha name hn).1
    · exact (slots arch ha name hn).2⟩
  rcases h : buildBinary env cfg args w with ⟨u, w'⟩ | ⟨e, w'⟩
  · exact .inr ((buildBinary_passInv env files cfg args w u w' h ready).2 picked)
  · exact .inl ⟨e, w', rfl⟩

theorem busybox_run_empties_libs :
    (∃ e w', buildBinary bbEnv bbConfig bbArgs ⟨archTree, []⟩ = .error e w') ∨
      LibsClear (final (buildBinary bbEnv bbConfig bbArgs ⟨archTree, []⟩)).fs :=
  binary_run_empties_libs bbEnv bbConfig bbArgs ⟨archTree, []⟩ bbEnv_ndkFiles (by decide) (by decide) (by decide)

end MagiskBuild
