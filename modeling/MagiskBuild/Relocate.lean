import MagiskBuild.Binary
import Mathlib.Data.List.Nodup
import Mathlib.Data.List.ProdSigma

/-!
The moves of `build_binary`. A move whose destination is not a directory but has one to go in
does what `moveSlot` says: a regular file replaces what is at the destination, a directory goes
there with its subtree when nothing is, and nothing else changes. A batch of such moves, no path
of one at or below a path of another (`Movable`), leaves at every path what its own move alone
gives (`movedTree`). So the moves of `run_ndk_build` put every artifact ndk-build left in
`native/libs/<arch>` at `native/out/<arch>/<name>`, and `run_cargo_build` makes every
`native/out/<arch>` it moves archives into.
-/
namespace MagiskBuild

/-- What `mv src dst` leaves at `q`, when `dst` is not a directory and has one to go in. -/
def moveSlot (fs : Fs) (src dst q : Path) : Option Node :=
  match fs.get src with
  | some (.file b) => if q = dst then some (.file b) else if q = src then none else fs.get q
  | some .dir =>
    if fs.get dst = none ∧ ¬ src <+: dst then
      if src <+: q then none else if dst <+: q then fs.get (src ++ q.drop dst.length) else fs.get q
    else fs.get q
  | none => fs.get q

section Slot

variable {fs : Fs} {src dst : Path}

theorem dirs_of_dir {p : Path} (h : fs.get p = some .dir) (q : Path) (pre : q <+: p) : fs.get q = some .dir := by
  by_cases e : q = p
  · exact e ▸ h
  · exact fs.prefix_dir h pre e

theorem get_mv_slot (hpar : fs.get (parent dst) = some .dir) (hdst : fs.get dst ≠ some .dir) (q : Path) :
    (fs.mv src dst).get q = moveSlot fs src dst q := by
  have real : fs.realDst src dst = dst := fs.realDst_of_not_dir hdst
  rcases hs : fs.get src with _ | _ | b
  · simp [moveSlot, hs, fs.mv_of_absent dst hs]
  · by_cases c : fs.get dst = none ∧ ¬ src <+: dst
    · have made : fs.makedirs (parent (fs.realDst src dst)) = .ok fs :=
        fs.makedirs_of_dirs fun p pre => by rw [real] at pre; simpa [Fs.isDir] using dirs_of_dir hpar p pre
      have moved := fs.get_mv_dir hs made (by rw [real]; exact c.2) (by rw [real]; exact c.1) q
      have above : ¬ (q <+: parent dst ∧ fs.get q = none) := fun h => by simp [dirs_of_dir hpar q h.1] at h
      rw [moved, real]
      simp [moveSlot, hs, c, above]
    · have stay : fs.mv src dst = fs :=
        (fs.mv_dir_cases hs).resolve_right fun ⟨_, _, out, free⟩ => c ⟨real ▸ free, real ▸ out⟩
      simp [moveSlot, hs, c, stay]
  · by_cases hne : dst = src
    · have stay : fs.mv src dst = fs := (fs.mv_file_cases hs).resolve_right fun ⟨_, _, ne, _⟩ => ne (real.trans hne)
      subst hne
      by_cases hq : q = dst <;> simp [moveSlot, hs, stay, hq]
    · simp [moveSlot, hs, fs.mv_moves hs hdst hpar hne]

theorem moveSlot_untouched {q : Path} (h₁ : ¬ src <+: q) (h₂ : ¬ dst <+: q) : moveSlot fs src dst q = fs.get q := by
  have ne₁ : q ≠ src := fun e => h₁ (e ▸ List.prefix_refl _)
  have ne₂ : q ≠ dst := fun e => h₂ (e ▸ List.prefix_refl _)
  unfold moveSlot
  split <;> simp [ne₁, ne₂, h₁, h₂]

theorem moveSlot_congr {fs' : Fs} (h : ∀ p, src <+: p ∨ dst <+: p → fs'.get p = fs.get p) {q : Path}
    (hq : src <+: q ∨ dst <+: q) : moveSlot fs' src dst q = moveSlot fs src dst q := by
  have below : ∀ t, fs'.get (src ++ t) = fs.get (src ++ t) := fun t => h _ (.inl (List.prefix_append _ _))
  simp only [moveSlot, h src (.inl (List.prefix_refl _)), h dst (.inr (List.prefix_refl _)), h q hq, below]

end Slot

section Moves

variable {κ : Type} (src dst : κ → Path)

/-- The tree after the moves `src k → dst k` of `ks`, each read as if it were alone. -/
def movedTree (ks : List κ) (fs : Fs) (q : Path) : Option Node :=
  match ks with
  | [] => fs.get q
  | k :: ks => if src k <+: q ∨ dst k <+: q then moveSlot fs (src k) (dst k) q else movedTree ks fs q

/-- What `mv` needs to do the moves of `ks` in turn as if each were alone: no path of one move is
at or below a path of another, every destination has a directory to go in and is none itself. -/
structure Movable (ks : List κ) (fs : Fs) : Prop where
  nodup : ks.Nodup
  apart : ∀ a ∈ ks, ∀ b ∈ ks, a ≠ b → ∀ p ∈ [src a, dst a], ∀ p' ∈ [src b, dst b], ¬ p <+: p'
  dirs : ∀ k ∈ ks, fs.get (parent (dst k)) = some .dir
  slots : ∀ k ∈ ks, fs.get (dst k) ≠ some .dir

variable {src dst}

theorem movedTree_untouched {ks : List κ} {fs : Fs} {q : Path} (h : ∀ k ∈ ks, ¬ src k <+: q ∧ ¬ dst k <+: q) :
    movedTree src dst ks fs q = fs.get q := by
  induction ks with
  | nil => rfl
  | cons k ks ih =>
    have hk := h k (List.mem_cons_self k ks)
    rw [movedTree, if_neg fun e => e.elim hk.1 hk.2]
    exact ih fun k' hk' => h k' (List.mem_cons_of_mem k hk')

theorem movedTree_snoc {ks : List κ} {k : κ} {fs : Fs} {q : Path} (h : ¬ (src k <+: q ∨ dst k <+: q)) :
    movedTree src dst (ks ++ [k]) fs q = movedTree src dst ks fs q := by
  induction ks with
  | nil => simp [movedTree, h]
  | cons k' ks ih => rw [List.cons_append, movedTree, movedTree, ih]

theorem Movable.sublist {ks ks' : List κ} {fs : Fs} (fit : Movable src dst ks fs) (sub : ks'.Sublist ks) :
    Movable src dst ks' fs where
  nodup := fit.nodup.sublist sub
  apart a ha b hb := fit.apart a (sub.subset ha) b (sub.subset hb)
  dirs k hk := fit.dirs k (sub.subset hk)
  slots k hk := fit.slots k (sub.subset hk)

theorem Movable.untouched_other {ks : List κ} {fs : Fs} (fit : Movable src dst ks fs) {a b : κ} (ha : a ∈ ks)
    (hb : b ∈ ks) (ne : a ≠ b) {p : Path} (hp : src a <+: p ∨ dst a <+: p ∨ p <+: dst a) :
    ¬ src b <+: p ∧ ¬ dst b <+: p := by
  have key : ∀ r ∈ [src b, dst b], ¬ r <+: p := fun r hr pre => by
    have other := fit.apart b hb a ha (Ne.symm ne) r hr
    rcases hp with h | h | h
    · exact (List.prefix_or_prefix_of_prefix h pre).elim (fit.apart a ha b hb ne _ (by simp) r hr) (other _ (by simp))
    · exact (List.prefix_or_prefix_of_prefix h pre).elim (fit.apart a ha b hb ne _ (by simp) r hr) (other _ (by simp))
    · exact other _ (by simp) (pre.trans h)
  exact ⟨key _ (by simp), key _ (by simp)⟩

theorem movedTree_at {ks : List κ} {fs : Fs} (fit : Movable src dst ks fs) {k : κ} (mem : k ∈ ks) {q : Path}
    (hq : src k <+: q ∨ dst k <+: q) : movedTree src dst ks fs q = moveSlot fs (src k) (dst k) q := by
  induction ks with
  | nil => cases mem
  | cons k' ks ih =>
    rw [movedTree]
    by_cases e : k = k'
    · subst e
      rw [if_pos hq]
    · have other := fit.untouched_other mem (List.mem_cons_self k' ks) e (hq.imp_right .inl)
      rw [if_neg fun h => h.elim other.1 other.2]
      exact ih (fit.sublist (List.sublist_cons_self k' ks)) ((List.mem_cons.mp mem).resolve_left e)

section Run

variable {w : World} {fs₀ : Fs}

theorem mv_movedTree {done : List κ} {k : κ} (fit : Movable src dst (done ++ [k]) fs₀)
    (hfs : ∀ q, w.fs.get q = movedTree src dst done fs₀ q) (q : Path) :
    (w.fs.mv (src k) (dst k)).get q = movedTree src dst (done ++ [k]) fs₀ q := by
  have mem : k ∈ done ++ [k] := List.mem_append_right _ (List.mem_singleton_self k)
  have fresh : k ∉ done := fun h => (List.nodup_append.mp fit.nodup).2.2 h (List.mem_singleton_self k)
  have agree : ∀ p, src k <+: p ∨ dst k <+: p ∨ p <+: dst k → w.fs.get p = fs₀.get p := fun p hp =>
    (hfs p).trans (movedTree_untouched fun k' hk' =>
      fit.untouched_other mem (List.mem_append_left _ hk') (fun e => fresh (e ▸ hk')) hp)
  rw [get_mv_slot (by rw [agree _ (.inr (.inr (parent_isPrefix_self _)))]; exact fit.dirs k mem)
    (by rw [agree _ (.inr (.inl (List.prefix_refl _)))]; exact fit.slots k mem)]
  by_cases hq : src k <+: q ∨ dst k <+: q
  · rw [moveSlot_congr (fun p hp => agree p (hp.imp_right .inl)) hq, movedTree_at fit mem hq]
  · push_neg at hq
    rw [moveSlot_untouched hq.1 hq.2, hfs, movedTree_snoc (by tauto)]

theorem forM_mv_from {done ks : List κ} (fit : Movable src dst (done ++ ks) fs₀)
    (hfs : ∀ q, w.fs.get q = movedTree src dst done fs₀ q) :
    ∃ fs, (ks.forM fun k => mv (src k) (dst k)) w = .ok () { w with fs } ∧
      ∀ q, fs.get q = movedTree src dst (done ++ ks) fs₀ q := by
  induction ks generalizing done w with
  | nil => exact ⟨w.fs, rfl, by simpa using hfs⟩
  | cons k ks ih =>
    have fit' : Movable src dst (done ++ [k] ++ ks) fs₀ := by simpa using fit
    obtain ⟨fs, run, spec⟩ := ih (w := { w with fs := w.fs.mv (src k) (dst k) }) fit'
      (mv_movedTree (fit'.sublist (List.sublist_append_left _ _)) hfs)
    exact ⟨fs, by rw [List.forM_cons', bind_ok (mv_apply w (src k) (dst k))]; exact run, by simpa using spec⟩

theorem forM_mv_spec {ks : List κ} (fit : Movable src dst ks w.fs) :
    ∃ fs, (ks.forM fun k => mv (src k) (dst k)) w = .ok () { w with fs } ∧
      ∀ q, fs.get q = movedTree src dst ks w.fs q :=
  forM_mv_from (show Movable src dst ([] ++ ks) w.fs from fit) fun _ => rfl

end Run

end Moves

/-- Every `native/out/<arch>` is a directory: what the moves of both build families need. -/
def ArchDirs (fs : Fs) : Prop := ∀ arch ∈ archs, fs.get (nativeOut ++ [arch]) = some .dir

instance : DecidablePred ArchDirs := fun fs =>
  inferInstanceAs (Decidable (∀ arch ∈ archs, fs.get (nativeOut ++ [arch]) = some .dir))

def artifactSlots : List (String × String) := archs ×ˢ ndkArtifacts

theorem relocate_eq :
    relocate = artifactSlots.forM fun a => mv (Function.uncurry libsPath a) (Function.uncurry outPath a) := by
  show _ = (archs.flatMap fun arch => ndkArtifacts.map (Prod.mk arch)).forM _
  rw [forM_flatMap]
  simp only [forM_map]
  rfl

theorem slot_paths_apart {a b : String × String} (ne : a ≠ b) :
    ∀ p ∈ [Function.uncurry libsPath a, Function.uncurry outPath a],
      ∀ p' ∈ [Function.uncurry libsPath b, Function.uncurry outPath b], ¬ p <+: p' := by
  obtain ⟨a₁, a₂⟩ := a
  obtain ⟨b₁, b₂⟩ := b
  have ne' : a₁ = b₁ → a₂ ≠ b₂ := fun h₁ h₂ => ne (by rw [h₁, h₂])
  simp only [List.mem_cons, List.mem_singleton, List.not_mem_nil, or_false, forall_eq_or_imp, forall_eq,
    Function.uncurry_apply_pair]
  refine ⟨⟨?_, ?_⟩, ?_, ?_⟩ <;> intro pre <;>
    have e := pre.eq_of_length (by simp [libsPath, outPath, nativeOut]) <;> simp_all [libsPath, outPath, nativeOut]

theorem relocate_movable {fs : Fs} (dirs : ArchDirs fs)
    (slots : ∀ arch ∈ archs, ∀ name ∈ ndkArtifacts, fs.get (outPath arch name) ≠ some .dir) :
    Movable (Function.uncurry libsPath) (Function.uncurry outPath) artifactSlots fs where
  nodup := List.Nodup.product (by decide) (by decide)
  apart _ _ _ _ ne := slot_paths_apart ne
  dirs := fun ⟨arch, name⟩ h => by simpa [parent, outPath] using dirs arch (List.mem_product.mp h).1
  slots := fun ⟨arch, name⟩ h => slots arch (List.mem_product.mp h).1 name (List.mem_product.mp h).2

section Ndk

variable {env : Env} {w : World}

theorem ndkBuild_keeps_slots {flags : String} {jobs : Nat} {fs : Fs}
    (run : env.toolchain.run (.ndkBuild flags jobs) w.fs = some (0, fs)) (dirs : ArchDirs w.fs)
    (slots : ∀ arch ∈ archs, ∀ name ∈ ndkArtifacts, w.fs.get (outPath arch name) ≠ some .dir) :
    ArchDirs fs ∧ ∀ arch ∈ archs, ∀ name ∈ ndkArtifacts, fs.get (outPath arch name) ≠ some .dir :=
  ⟨fun arch ha => (ndkBuild_keeps_out run ⟨[arch], rfl⟩).trans (dirs arch ha), fun arch ha name hn => by
    rw [ndkBuild_keeps_out run (⟨[arch, name], rfl⟩ : nativeOut <+: outPath arch name)]
    exact slots arch ha name hn⟩

theorem relocate_places (dirs : ArchDirs w.fs)
    (slots : ∀ arch ∈ archs, ∀ name ∈ ndkArtifacts, w.fs.get (outPath arch name) ≠ some .dir) :
    ∃ fs', relocate w = .ok () { w with fs := fs' } ∧
      (∀ arch ∈ archs, ∀ name ∈ ndkArtifacts, ∀ q, libsPath arch name <+: q ∨ outPath arch name <+: q →
        fs'.get q = (w.fs.mv (libsPath arch name) (outPath arch name)).get q) ∧
      ∀ q, (∀ arch ∈ archs, ∀ name ∈ ndkArtifacts, ¬ libsPath arch name <+: q ∧ ¬ outPath arch name <+: q) →
        fs'.get q = w.fs.get q := by
  have fit := relocate_movable dirs slots
  obtain ⟨fs', run, spec⟩ : ∃ fs', relocate w = .ok () { w with fs := fs' } ∧
      ∀ q, fs'.get q = movedTree (Function.uncurry libsPath) (Function.uncurry outPath) artifactSlots w.fs q := by
    rw [relocate_eq]
    exact forM_mv_spec fit
  refine ⟨fs', run, fun arch ha name hn q hq => ?_, fun q hq => ?_⟩
  · have mem : (arch, name) ∈ artifactSlots := List.mem_product.mpr ⟨ha, hn⟩
    rw [spec, movedTree_at fit mem hq]
    exact (get_mv_slot (fit.dirs _ mem) (fit.slots _ mem) q).symm
  · rw [spec, movedTree_untouched fun ⟨arch, name⟩ h => hq arch (List.mem_product.mp h).1 name (List.mem_product.mp h).2]

theorem moved_files_of_alone {fs fs' : Fs} (dirs : ArchDirs fs)
    (slots : ∀ arch ∈ archs, ∀ name ∈ ndkArtifacts, fs.get (outPath arch name) ≠ some .dir)
    (alone : ∀ arch ∈ archs, ∀ name ∈ ndkArtifacts, ∀ q, libsPath arch name <+: q ∨ outPath arch name <+: q →
      fs'.get q = (fs.mv (libsPath arch name) (outPath arch name)).get q) :
    ∀ arch ∈ archs, ∀ name ∈ ndkArtifacts, ∀ b, fs.get (libsPath arch name) = some (.file b) →
      fs'.get (outPath arch name) = some (.file b) ∧ fs'.get (libsPath arch name) = none := by
  intro arch ha name hn b hb
  have par : fs.get (parent (outPath arch name)) = some .dir := by simpa [parent, outPath] using dirs arch ha
  have ne : outPath arch name ≠ libsPath arch name := by simp [outPath, libsPath, nativeOut]
  have moves := fs.mv_moves hb (slots arch ha name hn) par ne
  rw [alone arch ha name hn _ (.inr (List.prefix_refl _)), alone arch ha name hn _ (.inl (List.prefix_refl _)),
    moves, moves]
  simp [Ne.symm ne]

/-- An ndk-build pass that exits 0 on a tree where every `native/out/<arch>` is a directory and
no artifact's place is one returns. Each regular file ndk-build left at `native/libs/<arch>/<name>`
moves to `native/out/<arch>/<name>`, over any stale file there; at and below each artifact's two
paths the tree is what `mv` of that artifact alone makes of the tree ndk-build left (a directory
moves with its subtree when its place is free), and every other path is as ndk-build left it. -/
theorem ndk_pass_relocates (env : Env) (flags : String) {w : World} {fs : Fs} (hnative : w.fs.isDir ["native"])
    (run : env.toolchain.run (.ndkBuild (ndkFlags flags) env.cpuCount) w.fs = some (0, fs))
    (dirs : ArchDirs w.fs) (slots : ∀ arch ∈ archs, ∀ name ∈ ndkArtifacts, w.fs.get (outPath arch name) ≠ some .dir) :
    ∃ fs', runNdkBuild env flags w = .ok () ⟨fs', w.log ++ [.exec (.ndkBuild (ndkFlags flags) env.cpuCount) 0]⟩ ∧
      (∀ arch ∈ archs, ∀ name ∈ ndkArtifacts, ∀ b, fs.get (libsPath arch name) = some (.file b) →
        fs'.get (outPath arch name) = some (.file b) ∧ fs'.get (libsPath arch name) = none) ∧
      (∀ arch ∈ archs, ∀ name ∈ ndkArtifacts, ∀ q, libsPath arch name <+: q ∨ outPath arch name <+: q →
        fs'.get q = (fs.mv (libsPath arch name) (outPath arch name)).get q) ∧
      ∀ q, (∀ arch ∈ archs, ∀ name ∈ ndkArtifacts, ¬ libsPath arch name <+: q ∧ ¬ outPath arch name <+: q) →
        fs'.get q = fs.get q := by
  obtain ⟨dirs', slots'⟩ := ndkBuild_keeps_slots run dirs slots
  obtain ⟨fs', moved, alone, frame⟩ :=
    relocate_places (w := ⟨fs, w.log ++ [.exec (.ndkBuild (ndkFlags flags) env.cpuCount) 0]⟩) dirs' slots'
  exact ⟨fs', by rw [runNdkBuild_of_built hnative run]; exact moved, moved_files_of_alone dirs' slots' alone, alone,
    frame⟩

end Ndk

def archTree : Fs where
  entries := checkoutTree.entries ++ (nativeOut, .dir) :: archs.map fun arch => (nativeOut ++ [arch], .dir)
  nodup := by decide
  rooted := by decide

theorem busybox_pass_with_arch_dirs :
    ∃ fs', runNdkBuild bbEnv "B_BB=1" ⟨archTree, []⟩ = .ok () ⟨fs', [.exec (.ndkBuild (ndkFlags "B_BB=1") 8) 0]⟩ ∧
      ∀ arch ∈ archs, fs'.isFile (outPath arch "busybox") ∧ fs'.get (libsPath arch "busybox") = none := by
  obtain ⟨fs', run, moved, -⟩ :=
    ndk_pass_relocates bbEnv "B_BB=1" (w := ⟨archTree, []⟩) (by decide) rfl (by decide) (by decide)
  have placed := foldl_putBusybox_places archs (by decide) (show archTree.get ["native"] = some .dir by decide)
    (by decide) (by decide)
  refine ⟨fs', run, fun arch ha => ?_⟩
  obtain ⟨b, hb⟩ := (Fs.isFile_iff _).mp (placed arch ha)
  obtain ⟨out, gone⟩ := moved arch ha "busybox" (by decide) b hb
  exact ⟨by simp [Fs.isFile, out], gone⟩

theorem outDirs_apart : (¬ CargoWrites nativeOut ∧ ∀ arch ∈ archs, ¬ CargoWrites (nativeOut ++ [arch])) := by
  decide

theorem not_cargoLib_prefix_out {triple profile t : String} {q : Path} (hq : nativeOut <+: q) :
    ¬ cargoLib triple profile t <+: q := fun pre =>
  absurd (List.prefix_of_prefix_length_le hq ((List.prefix_append cargoTree _).trans pre) (by decide)) (by decide)

theorem mv_out_dir {fs : Fs} {triple profile t arch : String} {q : Path} (hq : nativeOut <+: q) (len : q.length ≤ 3)
    (h : fs.get q = none ∨ fs.get q = some .dir) :
    (fs.mv (cargoLib triple profile t) (rsLib arch t)).get q = none ∨
      (fs.mv (cargoLib triple profile t) (rsLib arch t)).get q = some .dir := by
  rcases fs.mv_get_cases (cargoLib triple profile t) (rsLib arch t) q with e | ⟨pre, -⟩ | ⟨pre, -⟩ | ⟨-, -, d⟩
  · rwa [e]
  · exact absurd pre (not_cargoLib_prefix_out hq)
  · have := ((fs.prefix_realDst _ _).trans pre).length_le
    simp [rsLib, nativeOut] at this
    omega
  · exact .inr d

section Cargo

variable {env : Env} {w : World} {release verbose : Bool}

theorem forM_cargo_ok {ts : List String} {triple : String}
    (built : ∀ t ∈ ts, ∀ fs, ∃ fs',
      env.toolchain.run (.cargo (cargoArgs release verbose t triple) (min 8 env.cpuCount)) fs = some (0, fs')) :
    ∃ w', (ts.forM fun t => do
        let st ← runCargo env (cargoArgs release verbose t triple)
        if st ≠ 0 then error "Build binary failed!" else pure ()) w = .ok () w' ∧
      ∀ q, ¬ CargoWrites q → w'.fs.get q = w.fs.get q := by
  induction ts generalizing w with
  | nil => exact ⟨w, rfl, fun _ _ => rfl⟩
  | cons t ts ih =>
    obtain ⟨fs, ran⟩ := built t (List.mem_cons_self t ts) w.fs
    obtain ⟨w', run, frame⟩ :=
      ih (w := ⟨fs, w.log ++ [.exec (.cargo (cargoArgs release verbose t triple) (min 8 env.cpuCount)) 0]⟩)
        fun t' h => built t' (List.mem_cons_of_mem t h)
    refine ⟨w', ?_, fun q hq => (frame q hq).trans (env.toolchain.allows _ _ _ _ ran ⟨_, _, _, _, rfl⟩ q hq)⟩
    rw [List.forM_cons']
    simpa [runCargo, execv_ok env w ran] using run

/-- `native/out` is a directory and each `native/out/<arch>` a directory or missing: what the loop
of `run_cargo_build` needs, and keeps. -/
def OutReady (fs : Fs) : Prop :=
  fs.get nativeOut = some .dir ∧
    ∀ arch ∈ archs, fs.get (nativeOut ++ [arch]) = none ∨ fs.get (nativeOut ++ [arch]) = some .dir

theorem forM_mv_cargo (targets : List String) (triple profile arch : String) (w : World) :
    ∃ fs, (targets.forM fun t => mv (cargoLib triple profile t) (rsLib arch t)) w = .ok () { w with fs } ∧
      (OutReady w.fs → OutReady fs) ∧
      ∀ a ∈ archs, w.fs.get (nativeOut ++ [a]) = some .dir → fs.get (nativeOut ++ [a]) = some .dir := by
  induction targets generalizing w with
  | nil => exact ⟨w.fs, rfl, id, fun _ _ h => h⟩
  | cons t ts ih =>
    obtain ⟨fs, run, ready, kept⟩ := ih { w with fs := w.fs.mv (cargoLib triple profile t) (rsLib arch t) }
    have keep : ∀ {q}, nativeOut <+: q → w.fs.get q = some .dir →
        (w.fs.mv (cargoLib triple profile t) (rsLib arch t)).get q = some .dir :=
      fun hq d => w.fs.mv_keeps_dir d (.inl (not_cargoLib_prefix_out hq))
    refine ⟨fs, by rw [List.forM_cons', bind_ok (mv_apply w _ _)]; exact run, fun r => ready ⟨keep ⟨[], by simp⟩ r.1,
      fun a ha => mv_out_dir ⟨[a], rfl⟩ (by simp [nativeOut]) (r.2 a ha)⟩, fun a ha d => kept a ha (keep ⟨[a], rfl⟩ d)⟩

theorem cargoArch_spec {targets : List String} {arch triple : String} (ha : arch ∈ archs) (ready : OutReady w.fs)
    (built : ∀ t ∈ targets, ∀ fs, ∃ fs', env.toolchain.run
      (.cargo (cargoArgs release verbose t (rustTriple triple)) (min 8 env.cpuCount)) fs = some (0, fs')) :
    ∃ w', cargoArch env targets release verbose arch triple w = .ok () w' ∧ OutReady w'.fs ∧
      (∀ a ∈ archs, w.fs.get (nativeOut ++ [a]) = some .dir → w'.fs.get (nativeOut ++ [a]) = some .dir) ∧
      w'.fs.get (nativeOut ++ [arch]) = some .dir := by
  obtain ⟨w₁, builds, frame⟩ := forM_cargo_ok (w := w) built
  have atOut : ∀ a ∈ archs, w₁.fs.get (nativeOut ++ [a]) = w.fs.get (nativeOut ++ [a]) :=
    fun a ha => frame _ (outDirs_apart.2 a ha)
  have out₁ : w₁.fs.get nativeOut = some .dir := (frame _ outDirs_apart.1).trans ready.1
  obtain ⟨fs₂, made⟩ := w₁.fs.mkdirExistOk_ok (by rw [atOut arch ha]; exact ready.2 arch ha)
    (by simpa [parent] using out₁)
  have get₂ := w₁.fs.get_of_mkdirExistOk made
  have ready₂ : OutReady fs₂ := ⟨by rw [get₂, if_neg (by simp [nativeOut])]; exact out₁, fun a ha' => by
    rw [get₂]
    split_ifs
    · exact .inr rfl
    · rw [atOut a ha']; exact ready.2 a ha'⟩
  obtain ⟨fs₃, moves, ready₃, kept₃⟩ :=
    forM_mv_cargo targets (rustTriple triple) (rustOut release) arch { w₁ with fs := fs₂ }
  refine ⟨{ w₁ with fs := fs₃ }, ?_, ready₃ ready₂, fun a ha' d => kept₃ a ha' ?_, kept₃ arch ha (by simp [get₂])⟩
  · rw [cargoArch, bind_ok builds, bind_ok (mkdirExistOk_ok w₁ made)]
    exact moves
  · rw [get₂]
    split_ifs
    · rfl
    · rw [atOut a ha']; exact d

theorem forM_cargoArch {targets : List String} {ps : List (String × String)}
    (hps : ∀ p ∈ ps, p.1 ∈ archs)
    (built : ∀ p ∈ ps, ∀ t ∈ targets, ∀ fs, ∃ fs', env.toolchain.run
      (.cargo (cargoArgs release verbose t (rustTriple p.2)) (min 8 env.cpuCount)) fs = some (0, fs'))
    (ready : OutReady w.fs) :
    ∃ w', (ps.forM fun pair => cargoArch env targets release verbose pair.1 pair.2) w = .ok () w' ∧
      OutReady w'.fs ∧ (∀ arch ∈ archs, w.fs.get (nativeOut ++ [arch]) = some .dir →
        w'.fs.get (nativeOut ++ [arch]) = some .dir) ∧ ∀ p ∈ ps, w'.fs.get (nativeOut ++ [p.1]) = some .dir := by
  induction ps generalizing w with
  | nil => exact ⟨w, rfl, ready, fun _ _ h => h, by simp⟩
  | cons p ps ih =>
    have mem := List.mem_cons_self p ps
    obtain ⟨w₁, run, ready₁, kept₁, made₁⟩ := cargoArch_spec (hps p mem) ready (built p mem)
    obtain ⟨w', run', ready', kept, made'⟩ := ih (w := w₁) (fun p h => hps p (List.mem_cons_of_mem _ h))
      (fun p h => built p (List.mem_cons_of_mem _ h)) ready₁
    refine ⟨w', by rw [List.forM_cons', bind_ok run]; exact run', ready', fun a ha h => kept a ha (kept₁ a ha h),
      fun q hq => ?_⟩
    rcases List.mem_cons.mp hq with rfl | hq
    · exact kept q.1 (hps q mem) made₁
    · exact made' q hq

/-- With a Rust target asked for and every cargo build exiting 0, `run_cargo_build` returns
with every `native/out/<arch>` a directory. -/
theorem rust_request_makes_arch_dirs {target : List String} (rust : cargoTargets target ≠ [])
    (native : w.fs.get ["native"] = some .dir) (out : w.fs.get nativeOut = none ∨ w.fs.get nativeOut = some .dir)
    (free : ∀ arch ∈ archs, w.fs.get (nativeOut ++ [arch]) = none ∨ w.fs.get (nativeOut ++ [arch]) = some .dir)
    (_slots : ∀ arch ∈ archs, ∀ t, w.fs.get (rsLib arch t) ≠ some .dir)
    (built : ∀ t ∈ cargoTargets target, ∀ triple ∈ triples, ∀ fs, ∃ fs', env.toolchain.run
      (.cargo (cargoArgs release verbose t (rustTriple triple)) (min 8 env.cpuCount)) fs = some (0, fs')) :
    ∃ w', runCargoBuild env target release verbose w = .ok () w' ∧ ArchDirs w'.fs := by
  obtain ⟨fs₀, made⟩ := w.fs.mkdirExistOk_ok out (by simpa [parent, nativeOut] using native)
  have get₀ := w.fs.get_of_mkdirExistOk made
  have ready : OutReady fs₀ := ⟨by simp [get₀], fun a ha => by rw [get₀, if_neg (by simp [nativeOut])]; exact free a ha⟩
  have ne : env.setOrder.order (cargoTargets target) ≠ [] := fun h =>
    rust (List.eq_nil_iff_forall_not_mem.mpr fun t ht => by simpa [h] using (env.setOrder.mem _ t).mpr ht)
  obtain ⟨w', run, -, -, made'⟩ := forM_cargoArch (w := { w with fs := fs₀ })
    (fun ⟨_, _⟩ (hp : _ ∈ archs.zip triples) => (List.of_mem_zip hp).1)
    (fun ⟨_, _⟩ hp t ht => built t ((env.setOrder.mem _ t).mp ht) _ (List.of_mem_zip hp).2) ready
  have cover : ∀ arch ∈ archs, ∃ p ∈ archs.zip triples, p.1 = arch := by decide
  refine ⟨w', ?_, fun arch ha => ?_⟩
  · rw [runCargoBuild, bind_ok (mkdirExistOk_ok w made)]
    simpa only [if_neg ne] using run
  · obtain ⟨p, hp, rfl⟩ := cover arch ha
    exact made' p hp

theorem magisk_request_on_checkout :
    ∃ w', runCargoBuild bbEnv ["magisk"] false false ⟨checkoutTree, []⟩ = .ok () w' ∧ ArchDirs w'.fs :=
  rust_request_makes_arch_dirs (by decide) (by decide) (by decide) (by decide)
    (fun a _ t => by
      simp [checkoutTree.get_below_missing (show checkoutTree.get nativeOut = none by decide)
        (⟨_, rfl⟩ : nativeOut <+: rsLib a t)])
    fun _ _ _ _ fs => ⟨fs, rfl⟩

end Cargo

end MagiskBuild
