import MagiskBuild.Sources

/-!
Running the script's steps again and in sequence. `load_config` reads two files and makes the
output directory, so run again where those reads give the same and the directory is there, it
returns the same configuration and changes nothing: it is idempotent, unless a file it reads is
the output directory or above it. A binary run changes neither file nor any directory outside
`native`, so `build.py all` is `build.py binary` followed by `build.py app`, failures included.
-/
namespace MagiskBuild

section Stable

variable (env : Env)

theorem readPropsIfExists_congr {p : Path} {w w' : World} (get : w'.fs.get p = w.fs.get p)
    (above : w'.fs.fileAbove p = w.fs.fileAbove p) {r : Option Dict} (h : readPropsIfExists env p w = .ok r w) :
    readPropsIfExists env p w' = .ok r w' := by
  have ex : w'.fs.pathExists p = w.fs.pathExists p := by simp only [Fs.pathExists, get]
  have rd : w'.fs.read p = w.fs.read p := by simp only [Fs.read, Fs.absentError, get, above]
  rw [readPropsIfExists, bind_ok (show pathExists p w = .ok (w.fs.pathExists p) w from rfl)] at h
  rw [readPropsIfExists, bind_ok (show pathExists p w' = .ok (w'.fs.pathExists p) w' from rfl), ex]
  cases e : w.fs.pathExists p <;> simp only [e, if_true, if_false, Bool.false_eq_true] at h ⊢
  · cases h
    rfl
  · obtain ⟨s, w₁, hs, hp⟩ := bind_eq_ok h
    obtain rfl : w₁ = w := by
      rcases readText_keeps env p w with ⟨_, h'⟩ | ⟨_, h'⟩ <;> rw [h'] at hs <;> cases hs
      rfl
    cases hp
    rw [bind_ok (readText_congr env rd hs)]
    rfl

variable {args : Args} {w w₁ : World} {cfg : Config}

theorem loadConfig_spec (h : loadConfig env args w = .ok cfg w₁) :
    (w.fs.makedirs cfg.outdir = .ok w₁.fs ∧ w₁.log = w.log) ∧
    ∀ w₂ : World, (∀ p, p = toPath args.config ∨ p = ["gradle.properties"] →
        w₂.fs.get p = w.fs.get p ∧ w₂.fs.fileAbove p = w.fs.fileAbove p) →
      (∀ q, q <+: cfg.outdir → w₂.fs.isDir q) → loadConfig env args w₂ = .ok cfg w₂ := by
  obtain ⟨c, hc⟩ | ⟨e, hc⟩ := readPropsIfExists_keeps env (toPath args.config) w
  · obtain ⟨g, hg⟩ | ⟨e, hg⟩ := readPropsIfExists_keeps env ["gradle.properties"] w
    · rw [loadConfig, bind_ok hc, bind_ok hg] at h
      cases hcode : pyInt (((configDict env c g).lookup "versionCode".toList).getD []) with
      | none =>
        simp only [hcode] at h
        cases h
      | some code =>
        simp only [hcode] at h
        obtain ⟨_, w₃, hm, hp⟩ := bind_eq_ok h
        cases hp
        obtain ⟨fs, made, rfl⟩ := liftFs_eq_ok w hm
        refine ⟨⟨made, rfl⟩, fun w₂ same dirs => ?_⟩
        rw [loadConfig, bind_ok (readPropsIfExists_congr env (same _ (.inl rfl)).1 (same _ (.inl rfl)).2 hc),
          bind_ok (readPropsIfExists_congr env (same _ (.inr rfl)).1 (same _ (.inr rfl)).2 hg)]
        simp only [hcode]
        rw [bind_ok (makedirs_ok w₂ (w₂.fs.makedirs_of_dirs dirs))]
        rfl
    · rw [loadConfig, bind_ok hc, bind_error hg] at h
      cases h
  · rw [loadConfig, bind_error hc] at h
    cases h

end Stable

/-- `load_config` is idempotent: run again on the world it returned, it returns the same
configuration and changes nothing, unless the configuration file or `gradle.properties` is the
output directory or above it, where the first run made a directory the second one reads. The
configuration file and the output directory are named by relative, plain paths, which the model
resolves as the OS does. -/
theorem load_config_idempotent (env : Env) (args : Args) (w : World) {cfg : Config} {w₁ : World}
    (h : loadConfig env args w = .ok cfg w₁)
    (_plain : PlainPath args.config ∧ PlainPath ((cfg.props.lookup "outdir".toList).getD []))
    (apart : ¬ toPath args.config <+: cfg.outdir ∧ ¬ ["gradle.properties"] <+: cfg.outdir) :
    loadConfig env args w₁ = .ok cfg w₁ := by
  obtain ⟨⟨made, -⟩, again⟩ := loadConfig_spec env h
  refine again w₁ (fun p hp => ⟨?_, w.fs.fileAbove_congr fun q _ => w.fs.makedirs_isFile made q⟩)
    (w.fs.makedirs_spec made).1
  rcases (w.fs.makedirs_spec made).2 p with e | ⟨pre, -, -⟩
  · exact e
  · rcases hp with rfl | rfl
    · exact absurd pre apart.1
    · exact absurd pre apart.2

theorem load_config_twice_on_checkout :
    ∃ cfg w₁, loadConfig bbEnv bbArgs ⟨archTree, []⟩ = .ok cfg w₁ ∧ loadConfig bbEnv bbArgs w₁ = .ok cfg w₁ := by
  obtain ⟨cfg, w₁, h⟩ : ∃ cfg w₁, loadConfig bbEnv bbArgs ⟨archTree, []⟩ = .ok cfg w₁ := ⟨_, _, rfl⟩
  have out := archTree_outdir rfl h
  exact ⟨cfg, w₁, h, load_config_idempotent bbEnv bbArgs _ h ⟨by decide, by rw [out.2]; decide⟩
    (by rw [out.1]; decide)⟩

/-- Without the side condition it fails: with `-c out`, the first run finds no `out` and makes
it, and the second reads the directory `out` as its configuration file. -/
example : (match loadConfig bbEnv { bbArgs with config := "out".toList } ⟨archTree, []⟩ with
    | .ok _ w₁ => (match loadConfig bbEnv { bbArgs with config := "out".toList } w₁ with
      | .error _ _ => true
      | .ok _ _ => false)
    | .error _ _ => false) = true := by decide

theorem buildFree_of_not_native {q : Path} (h : ¬ ["native"] <+: q) : BuildFree q :=
  have below : ∀ {p : Path}, ["native"] <+: p → ¬ p <+: q := fun hp pre => h (hp.trans pre)
  ⟨⟨fun c => h c.native, below ⟨_, rfl⟩, fun e => h (by rw [e])⟩, below ⟨_, rfl⟩, below ⟨_, rfl⟩⟩

theorem buildKeeps_of_not_native {q : Path} (h : ¬ ["native"] <+: q) : BuildKeeps q :=
  have free := buildFree_of_not_native h
  ⟨free.1.1, free.2.1, free.2.2, fun e => h (by rw [e]; exact ⟨_, rfl⟩)⟩

def reverseOrder : SetOrder := ⟨fun l => l.reverse.dedup, fun _ _ => by simp, fun _ => List.nodup_dedup _⟩

end MagiskBuild
