import Mathlib.Data.List.Nodup

/-!
The file tree the build script works on. A path is the list of names below the repository
root `[]`; the SDK is some other path of the same tree. A tree lists each path once, and every
listed path hangs off the root through directories, so no tree has an entry below a regular
file or below a missing directory. Permissions, symbolic links and timestamps are not modelled.
-/
namespace MagiskBuild

abbrev Path := List String

inductive OsError where
  | fileNotFound
  | fileExists
  | isADirectory
  | notADirectory
  deriving DecidableEq, Repr, Inhabited

def parent (p : Path) : Path := p.dropLast

inductive Node where
  | dir
  | file (bytes : List UInt8)
  deriving DecidableEq, Repr, Inhabited

def lookup (p : Path) : List (Path × Node) → Option Node
  | [] => none
  | e :: es => if e.1 = p then some e.2 else lookup p es

def lookupAt (es : List (Path × Node)) (p : Path) : Option Node :=
  if p = [] then some .dir else lookup p es

structure Fs where
  entries : List (Path × Node)
  nodup : (entries.map Prod.fst).Nodup
  rooted : ∀ e ∈ entries, e.1 ≠ [] ∧ lookupAt entries (parent e.1) = some .dir

namespace Fs

def get (fs : Fs) (p : Path) : Option Node := lookupAt fs.entries p

def isFile (fs : Fs) (p : Path) : Bool :=
  match fs.get p with
  | some (.file _) => true
  | _ => false

def isDir (fs : Fs) (p : Path) : Bool := fs.get p = some .dir

def pathExists (fs : Fs) (p : Path) : Bool := (fs.get p).isSome

/-- Some directory on the way to `p` is a regular file, so the walk to `p` fails with ENOTDIR. -/
def fileAbove (fs : Fs) (p : Path) : Bool :=
  (List.range p.length).any fun i => fs.isFile (p.take i)

end Fs

theorem lookup_mem {p : Path} {n : Node} {es : List (Path × Node)} (h : lookup p es = some n) :
    (p, n) ∈ es := by
  induction es with
  | nil => simp [lookup] at h
  | cons e es ih =>
    simp only [lookup] at h
    split at h
    · cases h; rename_i eq; simp [← eq]
    · exact List.mem_cons_of_mem e (ih h)

theorem lookup_isSome {p : Path} {es : List (Path × Node)} : (lookup p es).isSome ↔ p ∈ es.map Prod.fst := by
  induction es with
  | nil => simp [lookup]
  | cons e es ih =>
    by_cases h : e.1 = p
    · simp [lookup, h]
    · simp [lookup, h, ih, Ne.symm h]

theorem lookup_filter (es : List (Path × Node)) (keep : Path → Prop) [DecidablePred keep]
    (q : Path) :
    lookup q (es.filter fun e => decide (keep e.1)) = if keep q then lookup q es else none := by
  induction es with
  | nil => simp [lookup]
  | cons e es ih =>
    by_cases he : e.1 = q
    · by_cases hk : keep q <;> simp [List.filter_cons, lookup, he, hk, ih]
    · by_cases hk : keep e.1 <;> simp [List.filter_cons, lookup, he, hk, ih]

theorem lookupAt_cons_filter (es : List (Path × Node)) {p : Path} (n : Node) (hp : p ≠ [])
    (q : Path) :
    lookupAt ((p, n) :: es.filter fun e => decide (e.1 ≠ p)) q =
      if q = p then some n else lookupAt es q := by
  by_cases hq : q = p
  · subst hq; simp [lookupAt, lookup, hp]
  · simp only [lookupAt, lookup, Ne.symm hq, if_false, hq]
    rw [lookup_filter es (· ≠ p)]
    simp [hq]

theorem lookupAt_filter_below (es : List (Path × Node)) (p q : Path) :
    lookupAt (es.filter fun e => decide (¬ p <+: e.1)) q =
      if q ≠ [] ∧ p <+: q then none else lookupAt es q := by
  by_cases hq : q = []
  · simp [lookupAt, hq]
  · simp only [lookupAt, hq, if_false]
    rw [lookup_filter es (¬ p <+: ·)]
    by_cases hpq : p <+: q <;> simp [hq, hpq]

theorem lookup_append (q : Path) (es gs : List (Path × Node)) :
    lookup q (es ++ gs) = (lookup q es).or (lookup q gs) := by
  induction es with
  | nil => rfl
  | cons e es ih =>
    simp only [List.cons_append, lookup]
    split
    · rfl
    · exact ih

def regraft (src dst : Path) (es : List (Path × Node)) : List (Path × Node) :=
  (es.filter fun e => decide (src <+: e.1)).map fun e => (dst ++ e.1.drop src.length, e.2)

theorem regraft_key_iff {src dst p q : Path} (hp : src <+: p) :
    dst ++ p.drop src.length = q ↔ dst <+: q ∧ p = src ++ q.drop dst.length := by
  obtain ⟨t, rfl⟩ := hp
  rw [List.drop_left]
  constructor
  · rintro rfl
    simp
  · rintro ⟨⟨u, rfl⟩, h⟩
    simp_all

theorem lookup_regraft (src dst q : Path) (es : List (Path × Node)) :
    lookup q (regraft src dst es) = if dst <+: q then lookup (src ++ q.drop dst.length) es else none := by
  induction es with
  | nil => simp [regraft, lookup]
  | cons e es ih =>
    simp only [regraft] at ih ⊢
    by_cases hs : src <+: e.1
    · by_cases hq : dst <+: q <;> simp [List.filter_cons, hs, hq, lookup, regraft_key_iff hs, ih, eq_comm]
    · have other : ∀ t, e.1 ≠ src ++ t := fun t h => hs (h ▸ List.prefix_append _ _)
      simp [List.filter_cons, hs, lookup, ih, other]

theorem parent_isPrefix_self (p : Path) : parent p <+: p := List.dropLast_prefix p

theorem parent_ne_self {p : Path} (hp : p ≠ []) : parent p ≠ p := by
  intro h
  have := congrArg List.length h
  simp only [parent, List.length_dropLast] at this
  have : p.length ≠ 0 := by simpa using hp
  omega

theorem prefix_parent {p q : Path} (pre : p <+: q) (ne : p ≠ q) : p <+: parent q := by
  refine List.prefix_of_prefix_length_le pre (parent_isPrefix_self q) ?_
  have := pre.length_le
  have : p.length ≠ q.length := fun e => ne (pre.eq_of_length e)
  simp only [parent, List.length_dropLast]
  omega

namespace Fs

variable (fs : Fs)

@[simp] theorem get_root : fs.get [] = some .dir := by simp [get, lookupAt]

theorem ne_root_of_get_ne_dir {p : Path} (h : fs.get p ≠ some .dir) : p ≠ [] := by
  rintro rfl; exact h fs.get_root

theorem parent_dir {p : Path} {n : Node} (h : fs.get p = some n) (hp : p ≠ []) :
    fs.get (parent p) = some .dir := by
  simp only [get, lookupAt, hp, if_false] at h
  exact (fs.rooted _ (lookup_mem h)).2

theorem prefix_dir {p q : Path} {n : Node} (h : fs.get q = some n) (pre : p <+: q) (ne : p ≠ q) :
    fs.get p = some .dir := by
  induction q using List.reverseRecOn generalizing n with
  | nil => exact absurd (List.prefix_nil.mp pre) ne
  | append_singleton q c ih =>
    have up : fs.get q = some .dir := by
      simpa [parent] using fs.parent_dir h (by simp)
    by_cases hpq : p = q
    · exact hpq ▸ up
    · have shorter : p.length ≤ q.length := by
        have := pre.length_le
        have : p.length ≠ q.length + 1 := fun e => ne (pre.eq_of_length (by simpa using e))
        simp at *; omega
      exact ih up (List.prefix_of_prefix_length_le pre (List.prefix_append q [c]) shorter) hpq

theorem get_below_file {p q : Path} {b : List UInt8} (h : fs.get p = some (.file b)) (pre : p <+: q)
    (ne : q ≠ p) : fs.get q = none := by
  cases hq : fs.get q with
  | none => rfl
  | some n => simpa [h] using fs.prefix_dir hq pre (Ne.symm ne)

theorem get_below_missing {p q : Path} (h : fs.get p = none) (pre : p <+: q) : fs.get q = none := by
  cases hq : fs.get q with
  | none => rfl
  | some n =>
    by_cases e : p = q
    · simp [e, hq] at h
    · simpa [h] using fs.prefix_dir hq pre e

/-- Puts `n` at `p`, replacing what was there; a directory is only ever replaced by a directory. -/
def insert (p : Path) (n : Node) (hp : p ≠ []) (hparent : fs.get (parent p) = some .dir)
    (hdir : fs.get p = some .dir → n = .dir) : Fs where
  entries := (p, n) :: fs.entries.filter fun e => decide (e.1 ≠ p)
  nodup := by
    refine List.nodup_cons.mpr ⟨by simp, ?_⟩
    exact fs.nodup.sublist ((List.filter_sublist _).map _)
  rooted := by
    rintro e he
    rcases List.mem_cons.mp he with rfl | he
    · exact ⟨hp, by rw [lookupAt_cons_filter _ _ hp, if_neg (parent_ne_self hp)]; exact hparent⟩
    · have he' := List.mem_filter.mp he
      have old := fs.rooted e he'.1
      refine ⟨old.1, ?_⟩
      rw [lookupAt_cons_filter _ _ hp]
      split
      · rename_i eq
        exact (hdir (by simpa [get, eq] using old.2)) ▸ rfl
      · exact old.2

def eraseTree (p : Path) : Fs where
  entries := fs.entries.filter fun e => decide (¬ p <+: e.1)
  nodup := fs.nodup.sublist ((List.filter_sublist _).map _)
  rooted := by
    rintro e he
    have he' := List.mem_filter.mp he
    have old := fs.rooted e he'.1
    refine ⟨old.1, ?_⟩
    have below : ¬ p <+: parent e.1 := fun h =>
      by simpa [h.trans (parent_isPrefix_self e.1)] using he'.2
    rw [lookupAt_filter_below]
    simpa [below] using old.2

@[simp] theorem get_insert (p : Path) (n : Node) (hp hparent hdir) (q : Path) :
    (fs.insert p n hp hparent hdir).get q = if q = p then some n else fs.get q :=
  lookupAt_cons_filter _ _ hp q

@[simp] theorem get_eraseTree (p q : Path) :
    (fs.eraseTree p).get q = if q ≠ [] ∧ p <+: q then none else fs.get q :=
  lookupAt_filter_below _ p q

theorem lookupAt_graft {src dst : Path} (hsrc : src ≠ []) (hdst : fs.get dst = none) (q : Path) :
    lookupAt (fs.entries ++ regraft src dst fs.entries) q =
      if dst <+: q then fs.get (src ++ q.drop dst.length) else fs.get q := by
  have hne : dst ≠ [] := fun e => by simp [e] at hdst
  by_cases hq : q = []
  · subst hq
    simp [lookupAt, hne]
  · have below : dst <+: q → lookup q fs.entries = none := fun pre => by
      simpa [get, lookupAt, hq] using fs.get_below_missing hdst pre
    by_cases pre : dst <+: q
    · simp [lookupAt, get, hq, hsrc, pre, below pre, lookup_append, lookup_regraft]
    · simp [lookupAt, get, hq, pre, lookup_append, lookup_regraft]

/-- What `shutil.copytree(src, dst)` makes of the missing `dst`, whose parent is a directory: the
subtree at `src`, again below `dst`. -/
def graft (src dst : Path) (hsrc : src ≠ []) (hdst : fs.get dst = none) (hpar : fs.get (parent dst) = some .dir) :
    Fs where
  entries := fs.entries ++ regraft src dst fs.entries
  nodup := by
    have keys : (regraft src dst fs.entries).map Prod.fst =
        ((fs.entries.filter fun e => decide (src <+: e.1)).map Prod.fst).map fun p => dst ++ p.drop src.length := by
      simp only [regraft, List.map_map]
      rfl
    have under : ∀ p ∈ (fs.entries.filter fun e => decide (src <+: e.1)).map Prod.fst, src <+: p := fun p hp => by
      obtain ⟨e, he, rfl⟩ := List.mem_map.mp hp
      simpa using (List.mem_filter.mp he).2
    rw [List.map_append, List.nodup_append, keys]
    refine ⟨fs.nodup, List.Nodup.map_on (fun a ha b hb e => ?_) (fs.nodup.sublist ((List.filter_sublist _).map _)),
      fun p hp hp' => ?_⟩
    · rw [← List.prefix_iff_eq_append.mp (under a ha), ← List.prefix_iff_eq_append.mp (under b hb),
        List.append_cancel_left e]
    · obtain ⟨p₀, -, rfl⟩ := List.mem_map.mp hp'
      have ne : dst ++ p₀.drop src.length ≠ [] := by simp [fs.ne_root_of_get_ne_dir (p := dst) (by simp [hdst])]
      have none : lookup (dst ++ p₀.drop src.length) fs.entries = none := by
        simpa [get, lookupAt, ne] using fs.get_below_missing hdst (List.prefix_append dst (p₀.drop src.length))
      simpa [none] using lookup_isSome.mpr hp
  rooted := by
    have at' := fs.lookupAt_graft hsrc hdst
    have hne : dst ≠ [] := fun e => by simp [e] at hdst
    have dirAbove : ∀ p, fs.get p = some .dir → lookupAt (fs.entries ++ regraft src dst fs.entries) p = some .dir :=
      fun p hp => by
        rw [at']
        split_ifs with pre
        · cases (fs.get_below_missing hdst pre).symm.trans hp
        · exact hp
    intro e he
    rcases List.mem_append.mp he with he | he
    · exact ⟨(fs.rooted e he).1, dirAbove _ (fs.rooted e he).2⟩
    · obtain ⟨e₀, he₀, rfl⟩ := List.mem_map.mp he
      obtain ⟨mem, pre⟩ := List.mem_filter.mp he₀
      obtain ⟨t, ht⟩ := of_decide_eq_true pre
      refine ⟨by simp [hne], ?_⟩
      by_cases t0 : t = []
      · simpa [← ht, t0] using dirAbove _ hpar
      · have up : parent (src ++ t) = src ++ parent t := List.dropLast_append_of_ne_nil src t0
        have old := (fs.rooted e₀ mem).2
        rw [← ht, List.drop_left, parent, List.dropLast_append_of_ne_nil dst t0, at', if_pos (List.prefix_append _ _),
          List.drop_left]
        rw [← ht, up] at old
        exact old

@[simp] theorem get_graft {src dst : Path} (hsrc hdst hpar) (q : Path) :
    (fs.graft src dst hsrc hdst hpar).get q = if dst <+: q then fs.get (src ++ q.drop dst.length) else fs.get q := by
  unfold graft get
  exact fs.lookupAt_graft hsrc hdst q

theorem ne_root_of_not_dir {p : Path} (h : ¬ fs.get p = some .dir) : p ≠ [] := by
  rintro rfl; exact h fs.get_root

def absentError (p : Path) : OsError := if fs.fileAbove p then .notADirectory else .fileNotFound

def read (p : Path) : Except OsError (List UInt8) :=
  match fs.get p with
  | some (.file b) => .ok b
  | some .dir => .error .isADirectory
  | none => .error (fs.absentError p)

/-- `open(p, "wb").write(b)`: truncates a regular file, or creates one in an existing directory. -/
def write (p : Path) (b : List UInt8) : Except OsError Fs :=
  if h : fs.get p = some .dir then .error .isADirectory
  else if hpar : fs.get (parent p) = some .dir then
    .ok (fs.insert p (.file b) (fs.ne_root_of_not_dir h) hpar (fun e => absurd e h))
  else .error (fs.absentError p)

def mkdir (p : Path) : Except OsError Fs :=
  if h : (fs.get p).isSome then .error .fileExists
  else if hpar : fs.get (parent p) = some .dir then
    .ok (fs.insert p .dir (fs.ne_root_of_not_dir (fun e => h (by simp [e]))) hpar (fun _ => rfl))
  else .error (fs.absentError p)

def remove (p : Path) : Except OsError Fs :=
  match fs.get p with
  | some (.file _) => .ok (fs.eraseTree p)
  | some .dir => .error .isADirectory
  | none => .error (fs.absentError p)

def mkdirExistOk (p : Path) : Except OsError Fs :=
  match fs.mkdir p with
  | .ok fs' => .ok fs'
  | .error e => if fs.isDir p then .ok fs else .error e

/-- `Path.mkdir(parents=True, exist_ok=True)` below the directory `done`: every missing
directory on the way is created, from the top down. -/
def makedirsFrom (done : Path) : List String → Fs → Except OsError Fs
  | [], fs => .ok fs
  | c :: cs, fs =>
    if fs.isDir (done ++ [c]) then makedirsFrom (done ++ [c]) cs fs
    else if (fs.get (done ++ [c])).isSome then
      .error (if cs = [] then .fileExists else .notADirectory)
    else (fs.mkdir (done ++ [c])).bind (makedirsFrom (done ++ [c]) cs)

def makedirs (p : Path) : Except OsError Fs := makedirsFrom [] p fs

/-- Where `shutil.move` puts `src`: inside `dst` when that is a directory, else at `dst`. -/
def realDst (src dst : Path) : Path := if fs.isDir dst then dst ++ src.getLast?.toList else dst

/-- `mv` of build.py: `shutil.move(src, dst)` with every exception swallowed. A regular file
replaces what is at its target; a directory is renamed, or copied with `copytree`, which makes
the missing directories on the way, and then removed. Nothing changes when the target inside a
directory `dst` exists, when a directory would go into itself or onto something, or when the
target has no directory to go in (for a directory: a regular file is on the way). -/
def mv (src dst : Path) : Fs :=
  let real := fs.realDst src dst
  match fs.get src with
  | some (.file b) =>
    if real = src ∨ (fs.isDir dst ∧ (fs.get real).isSome) then fs
    else match fs.write real b with
      | .ok fs' => fs'.eraseTree src
      | .error _ => fs
  | some .dir =>
    match fs.makedirs (parent real) with
    | .ok fs₁ =>
      if h : ¬ src <+: real ∧ fs₁.get real = none ∧ fs₁.get (parent real) = some .dir then
        (fs₁.graft src real (fun e => h.1 (e ▸ List.nil_prefix)) h.2.1 h.2.2).eraseTree src
      else fs
    | .error _ => fs
  | none => fs

/-- `cp` of build.py: `shutil.copyfile(src, dst)` with every exception swallowed. The bytes of a
regular file `src` replace what is at `dst`; nothing happens when `src` is not a regular file,
when `dst` is `src` (`SameFileError`), or when `dst` is a directory or has no directory to go in. -/
def cp (src dst : Path) : Fs :=
  match fs.get src with
  | some (.file b) =>
    if dst = src then fs
    else match fs.write dst b with
      | .ok fs' => fs'
      | .error _ => fs
  | _ => fs

/-- `rm` of build.py: `os.remove`, where only `FileNotFoundError` is swallowed. -/
def rm (p : Path) : Except OsError Fs :=
  match fs.remove p with
  | .error .fileNotFound => .ok fs
  | r => r

/-- `rm_rf` of build.py: `shutil.rmtree` with `rm_on_error`, which unlinks what `rmtree` cannot
walk (so a regular file goes too) and lets only `FileNotFoundError` pass. -/
def rmRf (p : Path) : Except OsError Fs :=
  if (fs.get p).isSome then .ok (fs.eraseTree p)
  else if fs.fileAbove p then .error .notADirectory
  else .ok fs

theorem get_of_write {p : Path} {b : List UInt8} {fs' : Fs} (h : fs.write p b = .ok fs') (q : Path) :
    fs'.get q = if q = p then some (.file b) else fs.get q := by
  unfold write at h
  split_ifs at h
  cases h
  simp

theorem write_ok {p : Path} (b : List UInt8) (hp : fs.get p ≠ some .dir)
    (hpar : fs.get (parent p) = some .dir) : ∃ fs', fs.write p b = .ok fs' := by
  simp [write, hp, hpar]

theorem write_error {p : Path} {b : List UInt8} {e : OsError} (h : fs.write p b = .error e) :
    fs.get p = some .dir ∨ fs.get (parent p) ≠ some .dir := by
  unfold write at h
  split_ifs at h <;> simp_all

theorem get_of_mkdir {p : Path} {fs' : Fs} (h : fs.mkdir p = .ok fs') (q : Path) :
    fs'.get q = if q = p then some .dir else fs.get q := by
  unfold mkdir at h
  split_ifs at h
  cases h
  simp

theorem mkdir_ok {p : Path} (hp : fs.get p = none) (hpar : fs.get (parent p) = some .dir) :
    ∃ fs', fs.mkdir p = .ok fs' := by
  simp [mkdir, hp, hpar]

theorem get_of_mkdirExistOk {p : Path} {fs' : Fs} (h : fs.mkdirExistOk p = .ok fs') (q : Path) :
    fs'.get q = if q = p then some .dir else fs.get q := by
  unfold mkdirExistOk at h
  split at h
  · cases h; exact fs.get_of_mkdir ‹_› q
  · split_ifs at h with hd
    cases h
    split_ifs with hq
    · simpa [isDir, hq] using hd
    · rfl

theorem mkdirExistOk_ok {p : Path} (hp : fs.get p = none ∨ fs.get p = some .dir)
    (hpar : fs.get (parent p) = some .dir) : ∃ fs', fs.mkdirExistOk p = .ok fs' := by
  rcases hp with hp | hp
  · obtain ⟨fs', h⟩ := fs.mkdir_ok hp hpar
    exact ⟨fs', by simp [mkdirExistOk, h]⟩
  · exact ⟨fs, by simp [mkdirExistOk, mkdir, hp, isDir]⟩

theorem get_eraseTree_file {p : Path} {b : List UInt8} (h : fs.get p = some (.file b)) (q : Path) :
    (fs.eraseTree p).get q = if q = p then none else fs.get q := by
  by_cases hq : q = p
  · subst hq; simp [fs.ne_root_of_not_dir (p := q) (by simp [h])]
  · by_cases pre : p <+: q
    · simp [hq, pre, fs.get_below_file h pre hq]
    · simp [hq, pre]

theorem get_of_rm {p : Path} {fs' : Fs} (h : fs.rm p = .ok fs') (q : Path) :
    fs'.get q = if q = p then none else fs.get q := by
  rcases hp : fs.get p with _ | _ | b
  · by_cases above : fs.fileAbove p <;> simp [rm, remove, hp, absentError, above] at h
    subst h
    by_cases hq : q = p <;> simp [hq, hp]
  · simp [rm, remove, hp] at h
  · simp only [rm, remove, hp] at h
    cases h
    exact fs.get_eraseTree_file hp q

theorem makedirsFrom_of_dirs (done : Path) (cs : List String)
    (h : ∀ q, q <+: cs → fs.isDir (done ++ q)) : makedirsFrom done cs fs = .ok fs := by
  induction cs generalizing done with
  | nil => rfl
  | cons c cs ih =>
    have here : fs.isDir (done ++ [c]) := h [c] (by simp)
    simp only [makedirsFrom, here, if_true]
    exact ih (done ++ [c]) fun q pre => by
      simpa using h (c :: q) (List.prefix_cons_inj c |>.mpr pre)

theorem makedirsFrom_spec {done : Path} {cs : List String} {fs' : Fs} (hdone : fs.isDir done)
    (h : makedirsFrom done cs fs = .ok fs') :
    (∀ q, q <+: cs → fs'.isDir (done ++ q)) ∧
      ∀ r, fs'.get r = fs.get r ∨
        (∃ q, q <+: cs ∧ r = done ++ q ∧ fs.get r = none ∧ fs'.get r = some .dir) := by
  induction cs generalizing done fs with
  | nil =>
    cases h
    refine ⟨fun q pre => ?_, fun r => .inl rfl⟩
    simpa [List.prefix_nil.mp pre] using hdone
  | cons c cs ih =>
    have up : ∀ {fs₁ : Fs}, fs₁.get done = fs.get done →
        (∀ q, q <+: cs → fs'.isDir (done ++ [c] ++ q)) →
        (∀ r, fs'.get r = fs₁.get r ∨
          (∃ q, q <+: cs ∧ r = done ++ [c] ++ q ∧ fs₁.get r = none ∧ fs'.get r = some .dir)) →
        ∀ q, q <+: c :: cs → fs'.isDir (done ++ q) := by
      intro fs₁ same dirs frame q pre
      rcases q with _ | ⟨c', q⟩
      · rcases frame done with e | ⟨_, _, e, _⟩
        · simpa [isDir, e, same] using hdone
        · simp at e
      · obtain ⟨rfl, tail⟩ := List.cons_prefix_cons.mp pre
        simpa using dirs q tail
    unfold makedirsFrom at h
    split_ifs at h with hd hs
    · obtain ⟨dirs, frame⟩ := ih fs hd h
      refine ⟨up rfl dirs frame, fun r => ?_⟩
      rcases frame r with e | ⟨q, pre, rfl, hnone, hdir⟩
      · exact .inl e
      · exact .inr ⟨c :: q, List.cons_prefix_cons.mpr ⟨rfl, pre⟩, by simp, hnone, hdir⟩
    · cases h₁ : fs.mkdir (done ++ [c]) with
      | error e => simp [h₁, Except.bind] at h
      | ok fs₁ =>
        simp only [h₁, Except.bind] at h
        have made := fs.get_of_mkdir h₁
        have hd₁ : fs₁.isDir (done ++ [c]) := by simp [isDir, made]
        have hnone : fs.get (done ++ [c]) = none := by simpa using hs
        obtain ⟨dirs, frame⟩ := ih fs₁ hd₁ h
        refine ⟨up (by simp [made]) dirs frame, fun r => ?_⟩
        rcases frame r with e | ⟨q, pre, rfl, hnone₁, hdir⟩
        · by_cases hr : r = done ++ [c]
          · subst hr
            exact .inr ⟨[c], by simp, by simp, hnone, by simpa [made] using e⟩
          · exact .inl (by simpa [made, hr] using e)
        · refine .inr ⟨c :: q, List.cons_prefix_cons.mpr ⟨rfl, pre⟩, by simp, ?_, hdir⟩
          rw [made] at hnone₁
          split at hnone₁
          · cases hnone₁
          · simpa using hnone₁

theorem isFile_iff {p : Path} : fs.isFile p ↔ ∃ b, fs.get p = some (.file b) := by
  unfold isFile
  split <;> simp_all

theorem makedirsFrom_ok {done : Path} {cs : List String} (hdone : fs.isDir done)
    (h : ∀ q, q <+: cs → ¬ fs.isFile (done ++ q)) : ∃ fs', makedirsFrom done cs fs = .ok fs' := by
  induction cs generalizing done fs with
  | nil => exact ⟨fs, rfl⟩
  | cons c cs ih =>
    have first : ¬ fs.isFile (done ++ [c]) := by simpa using h [c] (by simp)
    have rest (fs₁ : Fs) (here : fs₁.isDir (done ++ [c]))
        (same : ∀ r, r ≠ done ++ [c] → fs₁.get r = fs.get r) :
        ∃ fs', makedirsFrom (done ++ [c]) cs fs₁ = .ok fs' := by
      refine ih fs₁ here fun q pre => ?_
      by_cases hq : q = []
      · subst hq
        simp [isFile, show fs₁.get (done ++ [c]) = some .dir by simpa [isDir] using here]
      · have e := same (done ++ c :: q) (by simpa using hq)
        simpa [isFile, e] using h (c :: q) (List.cons_prefix_cons.mpr ⟨rfl, pre⟩)
    unfold makedirsFrom
    split_ifs with hd hs
    · exact rest fs hd (fun _ _ => rfl)
    · obtain ⟨n, hn⟩ := Option.isSome_iff_exists.mp hs
      cases n with
      | dir => simp [isDir, hn] at hd
      | file b => simp [isFile, hn] at first
    · obtain ⟨fs₁, h₁⟩ := fs.mkdir_ok (p := done ++ [c]) (by simpa using hs)
        (by simpa [parent, isDir] using hdone)
      rw [h₁]
      exact rest fs₁ (by simp [isDir, fs.get_of_mkdir h₁])
        (fun r hr => by simp [fs.get_of_mkdir h₁, hr])

theorem makedirs_of_dirs {p : Path} (h : ∀ q, q <+: p → fs.isDir q) : fs.makedirs p = .ok fs :=
  fs.makedirsFrom_of_dirs [] p (by simpa using h)

theorem makedirs_spec {p : Path} {fs' : Fs} (h : fs.makedirs p = .ok fs') :
    (∀ q, q <+: p → fs'.isDir q) ∧
      ∀ r, fs'.get r = fs.get r ∨ (r <+: p ∧ fs.get r = none ∧ fs'.get r = some .dir) := by
  obtain ⟨dirs, frame⟩ := fs.makedirsFrom_spec (by simp [isDir]) h
  refine ⟨by simpa using dirs, fun r => ?_⟩
  rcases frame r with e | ⟨q, pre, rfl, hn, hd⟩
  · exact .inl e
  · exact .inr ⟨by simpa using pre, hn, hd⟩

theorem makedirs_isFile {p : Path} {fs' : Fs} (h : fs.makedirs p = .ok fs') (q : Path) :
    fs'.isFile q = fs.isFile q := by
  rcases (fs.makedirs_spec h).2 q with e | ⟨-, none, dir⟩
  · simp only [isFile, e]
  · simp only [isFile, none, dir]

theorem fileAbove_congr {fs' : Fs} {p : Path} (h : ∀ q, q <+: p → fs'.isFile q = fs.isFile q) :
    fs'.fileAbove p = fs.fileAbove p := by
  unfold fileAbove
  congr 1
  funext i
  exact h _ (List.take_prefix i p)

theorem get_of_makedirs {p : Path} {fs' : Fs} (h : fs.makedirs p = .ok fs') (q : Path) :
    fs'.get q = if q <+: p ∧ fs.get q = none then some .dir else fs.get q := by
  obtain ⟨dirs, frame⟩ := fs.makedirs_spec h
  split_ifs with hq
  · simpa [isDir] using dirs q hq.1
  · exact (frame q).resolve_right fun c => hq ⟨c.1, c.2.1⟩

theorem write_eq_ok {p : Path} {b : List UInt8} {fs' : Fs} (h : fs.write p b = .ok fs') :
    fs.get p ≠ some .dir ∧ fs.get (parent p) = some .dir := by
  unfold write at h
  split_ifs at h with h₁ h₂
  exact ⟨h₁, h₂⟩

theorem not_prefix_parent {p : Path} (hp : p ≠ []) : ¬ p <+: parent p := fun h => by
  have := h.length_le
  simp only [parent, List.length_dropLast] at this
  have : p.length ≠ 0 := by simpa using hp
  omega

theorem prefix_realDst (src dst : Path) : dst <+: fs.realDst src dst := by
  unfold realDst
  split_ifs
  · exact List.prefix_append _ _
  · exact List.prefix_refl _

theorem parent_realDst_prefix (src dst : Path) : parent (fs.realDst src dst) <+: dst := by
  unfold realDst
  split_ifs
  · cases src.getLast? <;> simp [parent, List.dropLast_prefix]
  · exact parent_isPrefix_self dst

theorem realDst_of_not_dir {src dst : Path} (h : fs.get dst ≠ some .dir) : fs.realDst src dst = dst := by
  simp [realDst, isDir, h]

theorem mv_of_absent {src : Path} (dst : Path) (h : fs.get src = none) : fs.mv src dst = fs := by
  simp [mv, h]

theorem not_prefix_of_file {src dst : Path} {b : List UInt8} (hsrc : fs.get src = some (.file b))
    (hpar : fs.get (parent dst) = some .dir) (hne : dst ≠ src) : ¬ src <+: dst := by
  intro pre
  have up : src <+: parent dst := prefix_parent pre (Ne.symm hne)
  by_cases e : parent dst = src
  · simp [e, hsrc] at hpar
  · simp [fs.get_below_file hsrc up e] at hpar

theorem mv_file_cases {src dst : Path} {b : List UInt8} (hsrc : fs.get src = some (.file b)) :
    fs.mv src dst = fs ∨ ∃ fs', fs.write (fs.realDst src dst) b = .ok fs' ∧ fs.realDst src dst ≠ src ∧
      fs.mv src dst = fs'.eraseTree src := by
  simp only [mv, hsrc]
  split_ifs with same
  · exact .inl rfl
  · split
    · exact .inr ⟨_, ‹_›, fun e => same (.inl e), rfl⟩
    · exact .inl rfl

theorem mv_dir_cases {src dst : Path} (hsrc : fs.get src = some .dir) :
    fs.mv src dst = fs ∨ ∃ fs₁, fs.makedirs (parent (fs.realDst src dst)) = .ok fs₁ ∧
      ¬ src <+: fs.realDst src dst ∧ fs.get (fs.realDst src dst) = none := by
  simp only [mv, hsrc]
  split
  · rename_i fs₁ made
    split_ifs with h
    · refine .inr ⟨fs₁, made, h.1, ?_⟩
      have free := h.2.1
      rw [fs.get_of_makedirs made] at free
      split_ifs at free
      exact free
    · exact .inl rfl
  · exact .inl rfl

theorem get_mv_dir {src dst : Path} {fs₁ : Fs} (hsrc : fs.get src = some .dir)
    (made : fs.makedirs (parent (fs.realDst src dst)) = .ok fs₁) (out : ¬ src <+: fs.realDst src dst)
    (free : fs.get (fs.realDst src dst) = none) (q : Path) :
    (fs.mv src dst).get q = if src <+: q then none
      else if fs.realDst src dst <+: q then fs.get (src ++ q.drop (fs.realDst src dst).length)
      else if q <+: parent (fs.realDst src dst) ∧ fs.get q = none then some .dir else fs.get q := by
  have at₁ := fs.get_of_makedirs made
  have ne : src ≠ [] := fun e => out (e ▸ List.nil_prefix)
  have free₁ : fs₁.get (fs.realDst src dst) = none := by
    rw [at₁, if_neg fun c => not_prefix_parent (fs.ne_root_of_get_ne_dir (by simp [free])) c.1, free]
  have up₁ : fs₁.get (parent (fs.realDst src dst)) = some .dir := by
    simpa [isDir] using (fs.makedirs_spec made).1 _ (List.prefix_refl _)
  simp only [mv, hsrc, made, out, free₁, up₁, not_false_eq_true, and_self, dite_true, get_eraseTree, get_graft]
  by_cases h₁ : src <+: q
  · have qne : q ≠ [] := fun e => ne (List.prefix_nil.mp (e ▸ h₁))
    simp [h₁, qne]
  · have keep : ∀ t, ¬ src ++ t <+: parent (fs.realDst src dst) := fun t pre =>
      out ((List.prefix_append src t).trans (pre.trans (parent_isPrefix_self _)))
    by_cases h₂ : fs.realDst src dst <+: q <;> simp [h₁, h₂, at₁, keep]

theorem mv_get_cases (src dst q : Path) :
    (fs.mv src dst).get q = fs.get q ∨
      (src <+: q ∧ ¬ src <+: fs.realDst src dst ∧ (fs.mv src dst).get q = none) ∨
      (fs.realDst src dst <+: q ∧ fs.get (fs.realDst src dst) ≠ some .dir) ∨
      (q <+: dst ∧ fs.get q = none ∧ (fs.mv src dst).get q = some .dir) := by
  rcases hs : fs.get src with _ | _ | b
  · exact .inl (by rw [fs.mv_of_absent dst hs])
  · rcases fs.mv_dir_cases hs with stay | ⟨fs₁, made, out, free⟩
    · exact .inl (by rw [stay])
    · rw [fs.get_mv_dir hs made out free]
      split_ifs with h₁ h₂ h₃
      · exact .inr (.inl ⟨h₁, out, rfl⟩)
      · exact .inr (.inr (.inl ⟨h₂, by simp [free]⟩))
      · exact .inr (.inr (.inr ⟨h₃.1.trans (fs.parent_realDst_prefix src dst), h₃.2, rfl⟩))
      · exact .inl rfl
  · rcases fs.mv_file_cases hs with stay | ⟨fs', hw, ne, moved⟩
    · exact .inl (by rw [stay])
    · have ok := fs.write_eq_ok hw
      rw [moved, get_eraseTree, fs.get_of_write hw]
      split_ifs with h₁ h₂
      · exact .inr (.inl ⟨h₁.2, fs.not_prefix_of_file hs ok.2 ne, rfl⟩)
      · exact .inr (.inr (.inl ⟨h₂ ▸ List.prefix_refl _, ok.1⟩))
      · exact .inl rfl

theorem mv_get_of_apart {src dst q : Path} (h₁ : ¬ src <+: q) (h₂ : ¬ dst <+: q)
    (h₃ : q <+: dst → fs.get q ≠ none) : (fs.mv src dst).get q = fs.get q := by
  rcases fs.mv_get_cases src dst q with e | ⟨pre, -⟩ | ⟨pre, -⟩ | ⟨pre, none, -⟩
  · exact e
  · exact absurd pre h₁
  · exact absurd ((fs.prefix_realDst src dst).trans pre) h₂
  · exact absurd none (h₃ pre)

theorem mv_keeps_dir {src dst q : Path} (hq : fs.get q = some .dir) (h : ¬ src <+: q ∨ q <+: dst) :
    (fs.mv src dst).get q = some .dir := by
  rcases fs.mv_get_cases src dst q with e | ⟨pre, out, -⟩ | ⟨pre, notDir⟩ | ⟨-, -, dir⟩
  · exact e.trans hq
  · exact absurd (pre.trans ((h.resolve_left (not_not.mpr pre)).trans (fs.prefix_realDst src dst))) out
  · by_cases e : fs.realDst src dst = q
    · exact absurd (e ▸ hq) notDir
    · exact absurd (fs.prefix_dir hq pre e) notDir
  · exact dir

theorem mv_of_no_dir {src dst : Path} (hsrc : fs.get src ≠ some .dir) (hdst : fs.get dst ≠ some .dir)
    (hpar : fs.get (parent dst) ≠ some .dir) : fs.mv src dst = fs := by
  rcases hs : fs.get src with _ | _ | b
  · exact fs.mv_of_absent dst hs
  · exact absurd hs hsrc
  · rcases fs.mv_file_cases hs with stay | ⟨_, hw, -⟩
    · exact stay
    · exact absurd (fs.realDst_of_not_dir hdst ▸ (fs.write_eq_ok hw).2) hpar

theorem mv_moves {src dst : Path} {b : List UInt8} (hsrc : fs.get src = some (.file b))
    (hdst : fs.get dst ≠ some .dir) (hpar : fs.get (parent dst) = some .dir) (hne : dst ≠ src)
    (q : Path) :
    (fs.mv src dst).get q = if q = dst then some (.file b) else if q = src then none else fs.get q := by
  obtain ⟨fs₁, h₁⟩ := fs.write_ok b hdst hpar
  have notDir : fs.isDir dst = false := by simpa [isDir] using hdst
  have below := fs.not_prefix_of_file hsrc hpar hne
  have src_ne : src ≠ [] := fs.ne_root_of_not_dir (by simp [hsrc])
  simp only [mv, realDst, hsrc, notDir, Bool.false_eq_true, if_false, hne, false_and, or_false, h₁,
    get_eraseTree, fs.get_of_write h₁]
  by_cases hq : q = dst
  · simp [hq, below]
  · by_cases hs : q = src
    · simp [hs, src_ne, Ne.symm hne]
    · by_cases pre : src <+: q
      · simp [hq, hs, pre, fs.get_below_file hsrc pre hs]
      · simp [hq, hs, pre]

theorem mv_get_src {src dst : Path} (hsrc : fs.get src ≠ some .dir) (hdst : fs.get dst ≠ some .dir)
    (hpar : fs.get (parent dst) = some .dir) (ne : dst ≠ src) : (fs.mv src dst).get src = none := by
  rcases hs : fs.get src with _ | _ | b
  · rw [fs.mv_of_absent dst hs, hs]
  · exact absurd hs hsrc
  · rw [fs.mv_moves hs hdst hpar ne, if_neg (Ne.symm ne), if_pos rfl]

theorem mv_places {src dst : Path} {b : List UInt8} (hsrc : fs.get src = some (.file b))
    (hdst : fs.get dst ≠ some .dir) (hpar : fs.get (parent dst) = some .dir) :
    (fs.mv src dst).get dst = some (.file b) := by
  by_cases hne : dst = src
  · subst hne
    simp [mv, realDst, hsrc, isDir]
  · simp [fs.mv_moves hsrc hdst hpar hne]

theorem get_of_rmRf {p : Path} {fs' : Fs} (h : fs.rmRf p = .ok fs') (q : Path) :
    fs'.get q = if q ≠ [] ∧ p <+: q then none else fs.get q := by
  unfold rmRf at h
  split_ifs at h with hp
  · cases h; exact fs.get_eraseTree p q
  · cases h
    by_cases pre : p <+: q
    · simp [pre, fs.get_below_missing (by simpa using hp) pre]
    · simp [pre]

theorem rmRf_ok {p : Path} (h : (fs.get p).isSome ∨ ¬ fs.fileAbove p) :
    ∃ fs', fs.rmRf p = .ok fs' := by
  unfold rmRf; split_ifs <;> simp_all

theorem mem_keys {q : Path} : q ∈ fs.entries.map Prod.fst ↔ q ≠ [] ∧ (fs.get q).isSome := by
  constructor
  · intro h
    obtain ⟨e, he, rfl⟩ := List.mem_map.mp h
    have ne := (fs.rooted e he).1
    exact ⟨ne, by simpa [get, lookupAt, ne] using lookup_isSome.mpr h⟩
  · rintro ⟨ne, h⟩
    exact lookup_isSome.mp (by simpa [get, lookupAt, ne] using h)

def Shrinks (fs fs' : Fs) : Prop := ∀ q n, fs'.get q = some n → fs.get q = some n

theorem Shrinks.refl : Shrinks fs fs := fun _ _ h => h

theorem Shrinks.trans {a b c : Fs} (h₁ : Shrinks a b) (h₂ : Shrinks b c) : Shrinks a c :=
  fun q n h => h₁ q n (h₂ q n h)

theorem Shrinks.fileAbove {a b : Fs} (h : Shrinks a b) {p : Path} (above : b.fileAbove p) : a.fileAbove p := by
  simp only [Fs.fileAbove, List.any_eq_true, isFile_iff] at above ⊢
  obtain ⟨i, hi, b, hb⟩ := above
  exact ⟨i, hi, b, h _ _ hb⟩

theorem not_fileAbove_of_get {p : Path} {n : Node} (h : fs.get p = some n) : ¬ fs.fileAbove p := by
  simp only [Fs.fileAbove, List.any_eq_true, List.mem_range, isFile_iff, not_exists, not_and]
  intro i hi b hb
  have ne : p.take i ≠ p := fun e => by simpa [List.length_take_of_le hi.le, hi.ne] using congrArg List.length e
  simpa [hb] using fs.prefix_dir h (List.take_prefix i p) ne

theorem rmRf_not_fileAbove {p : Path} {fs' : Fs} (h : fs.rmRf p = .ok fs') : ¬ fs.fileAbove p := by
  unfold rmRf at h
  split_ifs at h with hp above
  · obtain ⟨n, hn⟩ := Option.isSome_iff_exists.mp hp
    exact fs.not_fileAbove_of_get hn
  · exact above

theorem rm_not_fileAbove {p : Path} {fs' : Fs} (h : fs.rm p = .ok fs') : ¬ fs.fileAbove p := by
  rcases hp : fs.get p with _ | _ | b
  · by_cases above : fs.fileAbove p <;> simp [rm, remove, hp, absentError, above] at h ⊢
  · simp [rm, remove, hp] at h
  · exact fs.not_fileAbove_of_get hp

theorem rmRf_shrinks {p : Path} {fs' : Fs} (h : fs.rmRf p = .ok fs') : Shrinks fs fs' := fun q n hq => by
  rw [fs.get_of_rmRf h] at hq
  split_ifs at hq
  exact hq

theorem rm_shrinks {p : Path} {fs' : Fs} (h : fs.rm p = .ok fs') : Shrinks fs fs' := fun q n hq => by
  rw [fs.get_of_rm h] at hq
  split_ifs at hq
  exact hq

theorem rmRf_of_absent {p : Path} (hp : fs.get p = none) (above : ¬ fs.fileAbove p) : fs.rmRf p = .ok fs := by
  simp [rmRf, hp, above]

theorem rm_of_absent {p : Path} (hp : fs.get p = none) (above : ¬ fs.fileAbove p) : fs.rm p = .ok fs := by
  simp [rm, remove, hp, absentError, above]

theorem rm_returns {p : Path} (hp : fs.get p ≠ some .dir) (above : ¬ fs.fileAbove p) : ∃ fs', fs.rm p = .ok fs' := by
  rcases h : fs.get p with _ | _ | b
  · exact ⟨fs, fs.rm_of_absent h above⟩
  · exact absurd h hp
  · exact ⟨fs.eraseTree p, by simp [rm, remove, h]⟩

theorem write_keeps_dirs {p : Path} {b : List UInt8} {fs' : Fs} (h : fs.write p b = .ok fs') (q : Path) :
    fs'.get q = some .dir ↔ fs.get q = some .dir := by
  have notDir : fs.get p ≠ some .dir := fun d => by simp [write, d] at h
  rw [fs.get_of_write h]
  split_ifs with hq
  · subst hq; simp [notDir]
  · rfl

theorem mv_keeps_dirs {src : Path} (dst : Path) (hsrc : fs.get src ≠ some .dir) (q : Path) :
    (fs.mv src dst).get q = some .dir ↔ fs.get q = some .dir := by
  rcases hs : fs.get src with _ | _ | b
  · rw [fs.mv_of_absent dst hs]
  · exact absurd hs hsrc
  · rcases fs.mv_file_cases hs with stay | ⟨fs', hw, ne, moved⟩
    · rw [stay]
    · have moved' : fs'.get src = some (.file b) := by rw [fs.get_of_write hw, if_neg (Ne.symm ne), hs]
      rw [moved, fs'.get_eraseTree_file moved']
      split_ifs with hq
      · subst hq; simp [hs]
      · exact fs.write_keeps_dirs hw q

theorem cp_keeps_dirs (src dst q : Path) : (fs.cp src dst).get q = some .dir ↔ fs.get q = some .dir := by
  unfold cp
  split
  · split_ifs
    · rfl
    · split
      · exact fs.write_keeps_dirs ‹_› q
      · rfl
  · rfl

theorem cp_get_of_ne {src dst q : Path} (h : q ≠ dst) : (fs.cp src dst).get q = fs.get q := by
  unfold cp
  split
  · split_ifs
    · rfl
    · split
      · rw [fs.get_of_write ‹_›, if_neg h]
      · rfl
  · rfl

theorem cp_copies {src dst : Path} {b : List UInt8} (hsrc : fs.get src = some (.file b))
    (hdst : fs.get dst ≠ some .dir) (hpar : fs.get (parent dst) = some .dir) (hne : dst ≠ src) :
    (fs.cp src dst).get dst = some (.file b) := by
  obtain ⟨fs', hw⟩ := fs.write_ok b hdst hpar
  simp only [cp, hsrc, if_neg hne, hw, fs.get_of_write hw, if_true]

theorem rm_keeps_dirs {p : Path} {fs' : Fs} (h : fs.rm p = .ok fs') (q : Path) :
    fs'.get q = some .dir ↔ fs.get q = some .dir := by
  have notDir : fs.get p ≠ some .dir := fun d => by simp [rm, remove, d] at h
  rw [fs.get_of_rm h]
  split_ifs with hq
  · subst hq; simp [notDir]
  · rfl

end Fs
end MagiskBuild
