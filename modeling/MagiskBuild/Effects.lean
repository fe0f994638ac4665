import MagiskBuild.Process

/-!
What a call of build.py does to the file tree, whether it returns or fails, stated as a relation
between the tree it starts from and the tree it ends in. A reflexive, transitive relation that
holds of every call of a function holds of the function (`bind`, `if`, loops), so each relation is
stated once per call: `KeepsDirs K` keeps the directories at `K`, `NoNewDirs S` makes none at `S`,
and `Frame P` keeps every path of `P`. For runs that return, `Triple P act Q` carries a property
of the tree; an effect of every run gives one.
-/
namespace MagiskBuild

/-- Whatever `act` ends in, with a value or a failure, its tree is related by `R` to the tree it
started from. -/
def Effect {α : Type} (R : Fs → Fs → Prop) (act : M α) : Prop := ∀ w, R w.fs (final (act w)).fs

section Combinators

variable {R R' : Fs → Fs → Prop} {α β : Type}

theorem Effect.pure [IsRefl Fs R] (a : α) : Effect R (pure a : M α) := fun w => refl_of R w.fs

theorem Effect.error [IsRefl Fs R] (msg : String) : Effect R (error msg : M α) := fun w => refl_of R w.fs

theorem Effect.of_same [IsRefl Fs R] {act : M α} (h : ∀ w, (final (act w)).fs = w.fs) : Effect R act :=
  fun w => h w ▸ refl_of R w.fs

theorem Effect.mono {act : M α} (h : Effect R act) (hR : ∀ fs fs', R fs fs' → R' fs fs') : Effect R' act :=
  fun w => hR _ _ (h w)

theorem Effect.and {act : M α} (h : Effect R act) (h' : Effect R' act) :
    Effect (fun fs fs' => R fs fs' ∧ R' fs fs') act :=
  fun w => ⟨h w, h' w⟩

theorem Effect.bind [IsTrans Fs R] {x : M α} {f : α → M β} (hx : Effect R x) (hf : ∀ a, Effect R (f a)) :
    Effect R (x >>= f) := fun w => by
  have first := hx w
  rw [bind_apply]
  split
  · rename_i a w₁ h
    rw [h] at first
    exact trans_of R first (hf a w₁)
  · rename_i h
    rw [h] at first
    exact first

theorem Effect.ite {c : Prop} [Decidable c] {x y : M α} (hx : Effect R x) (hy : Effect R y) :
    Effect R (if c then x else y) := by
  split
  · exact hx
  · exact hy

theorem Effect.ite_bind [IsTrans Fs R] {c : Prop} [Decidable c] {x y : M α} {f : α → M β} (hx : Effect R x)
    (hy : Effect R y) (hf : ∀ a, Effect R (f a)) : Effect R (if c then x >>= f else y >>= f) :=
  .ite (hx.bind hf) (hy.bind hf)

theorem Effect.when [IsRefl Fs R] {c : Prop} [Decidable c] {x : M Unit} (h : c → Effect R x) :
    Effect R (if c then x else Pure.pure ()) := by
  split
  · exact h ‹_›
  · exact .pure ()

theorem Effect.forM [IsRefl Fs R] [IsTrans Fs R] {γ : Type} {xs : List γ} {f : γ → M Unit}
    (h : ∀ x ∈ xs, Effect R (f x)) : Effect R (xs.forM f) := by
  induction xs with
  | nil => exact .pure _
  | cons x xs ih =>
    rw [List.forM_cons']
    exact (h x (List.mem_cons_self x xs)).bind fun _ => ih fun y hy => h y (List.mem_cons_of_mem x hy)

end Combinators

/-- Every directory at a path of `K` stays a directory. -/
def KeepsDirs (K : Path → Prop) (fs fs' : Fs) : Prop := ∀ q, K q → fs.get q = some .dir → fs'.get q = some .dir

/-- No directory appears at a path of `S`. -/
def NoNewDirs (S : Path → Prop) (fs fs' : Fs) : Prop := ∀ q, S q → fs'.get q = some .dir → fs.get q = some .dir

section Change

variable {K : Path → Prop} {fs fs₁ : Fs}

instance : IsRefl Fs (KeepsDirs K) := ⟨fun _ _ _ h => h⟩

instance : IsTrans Fs (KeepsDirs K) := ⟨fun _ _ _ h₁ h₂ q hk d => h₂ q hk (h₁ q hk d)⟩

instance {S : Path → Prop} : IsRefl Fs (NoNewDirs S) := ⟨fun _ _ _ h => h⟩

instance {S : Path → Prop} : IsTrans Fs (NoNewDirs S) := ⟨fun _ _ _ h₁ h₂ q hs d => h₁ q hs (h₂ q hs d)⟩

theorem KeepsDirs.of_iff (h : ∀ q, fs₁.get q = some .dir ↔ fs.get q = some .dir) : KeepsDirs K fs fs₁ :=
  fun q _ d => (h q).mpr d

theorem KeepsDirs.mono {K' : Path → Prop} (h : KeepsDirs K fs fs₁) (hK : ∀ q, K' q → K q) : KeepsDirs K' fs fs₁ :=
  fun q hk d => h q (hK q hk) d

theorem KeepsDirs.of_frame {R : Path → Prop} (h : ∀ q, ¬ R q → fs₁.get q = fs.get q) (hK : ∀ q, K q → ¬ R q) :
    KeepsDirs K fs fs₁ := fun q hk d => (h q (hK q hk)).trans d

theorem NoNewDirs.of_iff {S : Path → Prop} (h : ∀ q, fs₁.get q = some .dir ↔ fs.get q = some .dir) :
    NoNewDirs S fs fs₁ := fun q _ d => (h q).mp d

theorem NoNewDirs.of_frame {S : Path → Prop} (h : ∀ q, S q → fs₁.get q = fs.get q) : NoNewDirs S fs fs₁ :=
  fun q hs d => (h q hs).symm.trans d

theorem rmRf_keepsDirs {p : Path} (h : fs.rmRf p = .ok fs₁) (hK : ∀ q, K q → ¬ p <+: q) : KeepsDirs K fs fs₁ :=
  fun q hk d => by rw [fs.get_of_rmRf h, if_neg fun e => hK q hk e.2]; exact d

theorem mkdirExistOk_keepsDirs {p : Path} (h : fs.mkdirExistOk p = .ok fs₁) : KeepsDirs K fs fs₁ :=
  fun q _ d => by rw [fs.get_of_mkdirExistOk h]; split_ifs <;> simp [d]

theorem makedirs_keepsDirs {p : Path} (h : fs.makedirs p = .ok fs₁) : KeepsDirs K fs fs₁ :=
  fun q _ d => by rw [fs.get_of_makedirs h]; split_ifs <;> simp [d]

end Change

/-- Every path of `P` is as it was. -/
def Frame (P : Path → Prop) (fs fs' : Fs) : Prop := ∀ q, P q → fs'.get q = fs.get q

/-- `q` is neither at or below `p` nor on the way to it, the root aside: what a call that writes
at `p`, making the directories above it, leaves alone. -/
def Apart (p q : Path) : Prop := ¬ p <+: q ∧ (q <+: p → q = [])

instance (p q : Path) : Decidable (Apart p q) := inferInstanceAs (Decidable (¬ p <+: q ∧ (q <+: p → q = [])))

theorem Apart.ne {p q r : Path} (h : Apart p q) (pre : r <+: p) (hr : r ≠ []) : q ≠ r := by
  rintro rfl
  exact hr (h.2 pre)

section Frames

variable {P P' : Path → Prop} {fs fs' : Fs}

instance : IsRefl Fs (Frame P) := ⟨fun _ _ _ => rfl⟩

instance : IsTrans Fs (Frame P) := ⟨fun _ _ _ h₁ h₂ q hq => (h₂ q hq).trans (h₁ q hq)⟩

theorem Frame.mono (h : Frame P fs fs') (hP : ∀ q, P' q → P q) : Frame P' fs fs' := fun q hq => h q (hP q hq)

theorem write_frame {p : Path} {b : List UInt8} (h : fs.write p b = .ok fs') : Frame (· ≠ p) fs fs' :=
  fun q hq => by rw [fs.get_of_write h, if_neg hq]

theorem mkdirExistOk_frame {p : Path} (h : fs.mkdirExistOk p = .ok fs') : Frame (· ≠ p) fs fs' :=
  fun q hq => by rw [fs.get_of_mkdirExistOk h, if_neg hq]

theorem makedirs_frame {p : Path} (h : fs.makedirs p = .ok fs') : Frame (fun q => q <+: p → q = []) fs fs' :=
  fun q hq => ((fs.makedirs_spec h).2 q).resolve_right fun c => by simp [hq c.1] at c

theorem rmRf_frame {p : Path} (h : fs.rmRf p = .ok fs') : Frame (fun q => ¬ p <+: q) fs fs' :=
  fun q hq => by rw [fs.get_of_rmRf h, if_neg fun c => hq c.2]

theorem rm_frame {p : Path} (h : fs.rm p = .ok fs') : Frame (· ≠ p) fs fs' :=
  fun q hq => by rw [fs.get_of_rm h, if_neg hq]

theorem mv_frame (src dst : Path) : Frame (fun q => ¬ src <+: q ∧ Apart dst q) fs (fs.mv src dst) :=
  fun q hq => fs.mv_get_of_apart hq.1 hq.2.1 fun pre => by simp [hq.2.2 pre]

theorem cp_frame (src dst : Path) : Frame (· ≠ dst) fs (fs.cp src dst) := fun _ hq => fs.cp_get_of_ne hq

end Frames

section Calls

variable (env : Env) {R : Fs → Fs → Prop}

theorem mv_effect {src dst : Path} (h : ∀ fs, R fs (fs.mv src dst)) : Effect R (mv src dst) := fun w => h w.fs

theorem cp_effect {src dst : Path} (h : ∀ fs, R fs (fs.cp src dst)) : Effect R (cp src dst) := fun w => h w.fs

variable [IsRefl Fs R]

theorem readText_effect (p : Path) : Effect R (readText env p) := .of_same fun w => by
  rcases readText_keeps env p w with ⟨_, h⟩ | ⟨_, h⟩ <;> rw [h] <;> rfl

theorem readBytes_effect (p : Path) : Effect R (readBytes p) := .of_same fun w => by
  unfold readBytes; split <;> rfl

theorem pathExists_effect (p : Path) : Effect R (pathExists p) := .of_same fun _ => rfl

theorem chdir_effect (p : Path) : Effect R (chdir p) := .of_same fun w => by
  unfold chdir; split <;> rfl

theorem liftFs_effect {p : Path} {f : Fs → Except OsError Fs} (h : ∀ fs fs', f fs = .ok fs' → R fs fs') :
    Effect R (liftFs p f) := fun w => by
  unfold liftFs
  split
  · exact h _ _ ‹_›
  · exact refl_of R _

theorem execv_effect {c : Cmd} (h : ∀ fs fs', c.Allows fs fs' → R fs fs') : Effect R (execv env c) := fun w => by
  unfold execv
  split
  · rename_i st fs hrun
    exact h _ _ (env.toolchain.allows _ _ _ _ hrun)
  · exact refl_of R _

theorem writeText_effect [IsTrans Fs R] {p : Path} (s : Str) (h : ∀ fs fs' b, fs.write p b = .ok fs' → R fs fs') :
    Effect R (writeText env p s) := fun w => by
  unfold writeText
  split
  · exact refl_of R _
  · rename_i fs₀ h₀
    have opened : R w.fs fs₀ := h _ _ _ h₀
    split
    · exact opened
    · split
      · exact trans_of R opened (h _ _ _ ‹_›)
      · exact opened

end Calls

section DirCalls

variable (env : Env) {K : Path → Prop}

theorem mv_dirs {src dst : Path} (hK : ∀ q, K q → ¬ src <+: q ∨ q <+: dst) : Effect (KeepsDirs K) (mv src dst) :=
  mv_effect fun fs q hk d => fs.mv_keeps_dir d (hK q hk)

theorem cp_dirs (src dst : Path) : Effect (KeepsDirs K) (cp src dst) :=
  cp_effect fun fs => .of_iff (fs.cp_keeps_dirs src dst)

theorem writeText_dirs (p : Path) (s : Str) : Effect (KeepsDirs K) (writeText env p s) :=
  writeText_effect env s fun fs _ _ h => .of_iff (fs.write_keeps_dirs h)

theorem mkdirExistOk_dirs (p : Path) : Effect (KeepsDirs K) (mkdirExistOk p) :=
  liftFs_effect fun _ _ h => mkdirExistOk_keepsDirs h

theorem makedirs_dirs (p : Path) : Effect (KeepsDirs K) (makedirs p) :=
  liftFs_effect fun _ _ h => makedirs_keepsDirs h

theorem rmRf_dirs {p : Path} (hK : ∀ q, K q → ¬ p <+: q) : Effect (KeepsDirs K) (rmRf p) :=
  liftFs_effect fun _ _ h => rmRf_keepsDirs h hK

theorem rm_dirs (p : Path) : Effect (KeepsDirs K) (rm p) :=
  liftFs_effect fun fs _ h => .of_iff (fs.rm_keeps_dirs h)

theorem elfCleanerCmd_dirs {exe : Path} {args : List String} {files : List Path} {fs fs' : Fs}
    (h : (Cmd.elfCleaner exe args files).Allows fs fs') (q : Path) : fs'.get q = some .dir ↔ fs.get q = some .dir := by
  rcases h q with e | ⟨-, f, f'⟩
  · rw [e]
  · obtain ⟨b, hb⟩ := (fs.isFile_iff).mp f
    obtain ⟨b', hb'⟩ := (fs'.isFile_iff).mp f'
    simp [hb, hb']

end DirCalls

section FrameCalls

variable (env : Env) {P : Path → Prop}

theorem writeText_untouched {p : Path} (s : Str) (hP : ∀ q, P q → q ≠ p) : Effect (Frame P) (writeText env p s) :=
  writeText_effect env s fun _ _ _ h => (write_frame h).mono hP

theorem mkdirExistOk_untouched {p : Path} (hP : ∀ q, P q → q ≠ p) : Effect (Frame P) (mkdirExistOk p) :=
  liftFs_effect fun _ _ h => (mkdirExistOk_frame h).mono hP

theorem makedirs_untouched {p : Path} (hP : ∀ q, P q → q <+: p → q = []) : Effect (Frame P) (makedirs p) :=
  liftFs_effect fun _ _ h => (makedirs_frame h).mono hP

theorem mv_untouched {src dst : Path} (hP : ∀ q, P q → ¬ src <+: q ∧ Apart dst q) :
    Effect (Frame P) (mv src dst) :=
  mv_effect fun _ => (mv_frame src dst).mono hP

theorem rmRf_untouched {p : Path} (hP : ∀ q, P q → ¬ p <+: q) : Effect (Frame P) (rmRf p) :=
  liftFs_effect fun _ _ h => (rmRf_frame h).mono hP

theorem rm_untouched {p : Path} (hP : ∀ q, P q → q ≠ p) : Effect (Frame P) (rm p) :=
  liftFs_effect fun _ _ h => (rm_frame h).mono hP

theorem cp_untouched {src dst : Path} (hP : ∀ q, P q → q ≠ dst) : Effect (Frame P) (cp src dst) :=
  cp_effect fun _ => (cp_frame src dst).mono hP

end FrameCalls

/-- A run of `act` that returns from a tree of `P` ends in a tree of `Q`. -/
def Triple {α : Type} (P : Fs → Prop) (act : M α) (Q : Fs → Prop) : Prop :=
  ∀ w a w', act w = .ok a w' → P w.fs → Q w'.fs

section Triples

variable {P Q S : Fs → Prop} {α β : Type}

theorem Triple.bind {x : M α} {f : α → M β} (hx : Triple P x Q) (hf : ∀ a, Triple Q (f a) S) :
    Triple P (x >>= f) S := fun w b w' h hp => by
  obtain ⟨a, w₁, h₁, h₂⟩ := bind_eq_ok h
  exact hf a w₁ b w' h₂ (hx w a w₁ h₁ hp)

theorem Triple.pure (h : ∀ fs, P fs → Q fs) (a : α) : Triple P (pure a : M α) Q := fun _ _ _ run hp => by
  cases run
  exact h _ hp

theorem Triple.of_same {act : M α} (h : ∀ w, (final (act w)).fs = w.fs) : Triple P act P := fun w a w' run hp => by
  have := h w
  rw [run] at this
  exact this ▸ hp

theorem Triple.ite {c : Prop} [Decidable c] {x y : M α} (hx : c → Triple P x Q) (hy : ¬ c → Triple P y Q) :
    Triple P (if c then x else y) Q := by
  split
  · exact hx ‹_›
  · exact hy ‹_›

theorem Triple.ite_bind {c : Prop} [Decidable c] {x y : M α} {f : α → M β} (hx : c → Triple P x Q)
    (hy : ¬ c → Triple P y Q) (hf : ∀ a, Triple Q (f a) S) : Triple P (if c then x >>= f else y >>= f) S :=
  .ite (fun h => (hx h).bind hf) fun h => (hy h).bind hf

theorem Triple.conseq {act : M α} {P' Q' : Fs → Prop} (h : Triple P act Q) (hP : ∀ fs, P' fs → P fs)
    (hQ : ∀ fs, Q fs → Q' fs) : Triple P' act Q' := fun w a w' run hp => hQ _ (h w a w' run (hP _ hp))

theorem Triple.of_effect {R : Fs → Fs → Prop} {act : M α} (h : Effect R act) (hR : ∀ fs fs', R fs fs' → P fs → Q fs') :
    Triple P act Q := fun w a w' run hp => by
  have := h w
  rw [run] at this
  exact hR _ _ this hp

end Triples

end MagiskBuild
