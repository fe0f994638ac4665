import Mathlib.Data.List.Basic
import Mathlib.Data.List.DropRight
import Mathlib.Data.List.Nodup

/-!
Python text as build.py handles it: a `str` is its list of characters. Text-mode files
translate newlines (universal newlines when read, `os.linesep` when written) and encode
characters with the platform's codec; `dict`s keep insertion order.
-/
namespace MagiskBuild

abbrev Str := List Char

def strip (chars : List Char) (s : Str) : Str :=
  (s.dropWhile (· ∈ chars)).rdropWhile (· ∈ chars)

/-- The characters build.py strips from property lines and version files: `" \t\r\n"`. -/
def lineSpace : List Char := [' ', '\t', '\r', '\n']

/-- Universal newlines: `\r\n` and a lone `\r` are read as `\n`. -/
def universalNewlines : Str → Str
  | [] => []
  | '\r' :: '\n' :: cs => '\n' :: universalNewlines cs
  | '\r' :: cs => '\n' :: universalNewlines cs
  | c :: cs => c :: universalNewlines cs

def linesep (windows : Bool) : Str := if windows then ['\r', '\n'] else ['\n']

def writeNewlines (windows : Bool) (s : Str) : Str :=
  s.flatMap fun c => if c = '\n' then linesep windows else [c]

/-- The lines a text-mode file yields when iterated: each ends after its `\n`, the last one may
have none. -/
def textLines : Str → List Str
  | [] => []
  | c :: cs =>
    if c = '\n' then ['\n'] :: textLines cs
    else match textLines cs with
      | [] => [[c]]
      | l :: ls => (c :: l) :: ls

/-- The encoding of text-mode files (`locale.getpreferredencoding`). Encoding fails on a character
the encoding lacks and decoding on bytes that encode nothing; a text decodes back from its
encoding, and every encoding Python offers for text files has the ASCII characters. -/
structure Codec where
  encode : Str → Option (List UInt8)
  decode : List UInt8 → Option Str
  decode_encode : ∀ s b, encode s = some b → decode b = some s
  encode_ascii : ∀ s, (∀ c ∈ s, c.toNat < 128) → (encode s).isSome

def latin1Encode : Str → Option (List UInt8)
  | [] => some []
  | c :: cs => if c.toNat < 256 then (latin1Encode cs).map (UInt8.ofNat c.toNat :: ·) else none

def latin1Decode (b : List UInt8) : Str := b.map fun x => Char.ofNat x.toNat

theorem latin1Decode_encode : ∀ (s : Str) (b : List UInt8), latin1Encode s = some b → latin1Decode b = s
  | [], b, h => by cases h; rfl
  | c :: cs, b, h => by
    simp only [latin1Encode] at h
    split at h
    · obtain ⟨rest, hrest, rfl⟩ := Option.map_eq_some'.mp h
      simp only [latin1Decode, List.map_cons, UInt8.toNat_ofNat_of_lt ‹_›, Char.ofNat_toNat]
      exact congrArg _ (latin1Decode_encode cs rest hrest)
    · cases h

theorem latin1Encode_isSome : ∀ s : Str, (∀ c ∈ s, c.toNat < 256) → (latin1Encode s).isSome
  | [], _ => rfl
  | c :: cs, h => by
    have rest := latin1Encode_isSome cs fun d hd => h d (List.mem_cons_of_mem c hd)
    simp only [latin1Encode, h c (List.mem_cons_self c cs), if_true]
    simpa using rest

def Codec.latin1 : Codec where
  encode := latin1Encode
  decode b := some (latin1Decode b)
  decode_encode s b h := congrArg some (latin1Decode_encode s b h)
  encode_ascii s h := latin1Encode_isSome s fun c hc => by have := h c hc; omega

abbrev Dict := List (Str × Str)

namespace Dict

def lookup (d : Dict) (k : Str) : Option Str := (d.find? (·.1 = k)).map (·.2)

/-- `d[k] = v`: a key already present keeps its place, a new key goes last. -/
def insert (d : Dict) (k v : Str) : Dict :=
  if d.any (·.1 = k) then d.map fun e => if e.1 = k then (k, v) else e else d ++ [(k, v)]

def update (d e : Dict) : Dict := e.foldl (fun d kv => Dict.insert d kv.1 kv.2) d

end Dict

@[simp] theorem universalNewlines_cons {c : Char} (h : c ≠ '\r') (cs : Str) :
    universalNewlines (c :: cs) = c :: universalNewlines cs := by
  cases cs <;> simp [universalNewlines, h]

@[simp] theorem universalNewlines_crlf (cs : Str) :
    universalNewlines ('\r' :: '\n' :: cs) = '\n' :: universalNewlines cs := by
  simp [universalNewlines]

theorem universalNewlines_append {l : Str} (h : '\r' ∉ l) (cs : Str) :
    universalNewlines (l ++ cs) = l ++ universalNewlines cs := by
  induction l with
  | nil => rfl
  | cons c l ih =>
    simp only [List.mem_cons, not_or] at h
    simp [Ne.symm h.1, ih h.2]

theorem universalNewlines_writeNewlines (windows : Bool) {s : Str} (h : '\r' ∉ s) :
    universalNewlines (writeNewlines windows s) = s := by
  induction s with
  | nil => rfl
  | cons c s ih =>
    simp only [List.mem_cons, not_or] at h
    have rest : universalNewlines (writeNewlines windows s) = s := ih h.2
    simp only [writeNewlines, List.flatMap_cons] at rest ⊢
    by_cases hc : c = '\n'
    · subst hc
      cases windows <;> simp only [linesep, Bool.false_eq_true, if_true, if_false] at rest ⊢ <;>
        simp [rest]
    · simp [hc, Ne.symm h.1, rest]

theorem textLines_of_not_mem {l : Str} (h : '\n' ∉ l) : textLines l = if l = [] then [] else [l] := by
  induction l with
  | nil => rfl
  | cons c l ih =>
    simp only [List.mem_cons, not_or] at h
    simp only [textLines, Ne.symm h.1, if_false, ih h.2]
    by_cases hl : l = [] <;> simp [hl]

theorem textLines_append_newline {l : Str} (h : '\n' ∉ l) (rest : Str) :
    textLines (l ++ '\n' :: rest) = (l ++ ['\n']) :: textLines rest := by
  induction l with
  | nil => simp [textLines]
  | cons c l ih =>
    simp only [List.mem_cons, not_or] at h
    simp [textLines, Ne.symm h.1, ih h.2]

theorem textLines_shape {s t : Str} (h : t ∈ textLines s) :
    ∃ l, '\n' ∉ l ∧ (t = l ∨ t = l ++ ['\n']) := by
  induction s generalizing t with
  | nil => simp [textLines] at h
  | cons c s ih =>
    by_cases hc : c = '\n'
    · simp only [textLines, hc, if_true, List.mem_cons] at h
      rcases h with rfl | h
      · exact ⟨[], by simp, .inr rfl⟩
      · exact ih h
    · simp only [textLines, hc, if_false] at h
      split at h
      · simp only [List.mem_singleton] at h
        exact ⟨[c], by simp [Ne.symm hc], .inl h⟩
      · rename_i l ls e
        rcases List.mem_cons.mp h with rfl | h
        · obtain ⟨m, hm, shape⟩ := ih (e ▸ List.mem_cons_self l ls)
          refine ⟨c :: m, by simp [Ne.symm hc, hm], ?_⟩
          rcases shape with e' | e' <;> simp [e']
        · exact ih (e ▸ List.mem_cons_of_mem l h)

theorem mem_of_mem_textLines {s t : Str} {c : Char} (h : t ∈ textLines s) (hc : c ∈ t) : c ∈ s := by
  induction s generalizing t with
  | nil => simp [textLines] at h
  | cons d s ih =>
    by_cases hd : d = '\n'
    · simp only [textLines, hd, if_true, List.mem_cons] at h
      rcases h with rfl | h
      · simp_all
      · exact List.mem_cons_of_mem _ (ih h hc)
    · simp only [textLines, hd, if_false] at h
      split at h
      · simp_all
      · rename_i l ls e
        rcases List.mem_cons.mp h with rfl | h
        · rcases List.mem_cons.mp hc with rfl | hc
          · exact List.mem_cons_self _ _
          · exact List.mem_cons_of_mem _ (ih (e ▸ List.mem_cons_self l ls) hc)
        · exact List.mem_cons_of_mem _ (ih (e ▸ List.mem_cons_of_mem l h) hc)

theorem cr_not_mem_universalNewlines (s : Str) : '\r' ∉ universalNewlines s := by
  induction s using universalNewlines.induct with
  | case1 => simp [universalNewlines]
  | case2 cs ih => simpa using ih
  | case3 cs _ ih => simpa [universalNewlines] using ih
  | case4 c cs _ hc ih =>
    rw [universalNewlines_cons hc]
    simpa [Ne.symm hc] using ih

section Strip

variable (chars : List Char)

theorem strip_sublist (s : Str) : (strip chars s).Sublist s :=
  (List.rdropWhile_prefix _ _).sublist.trans (List.dropWhile_sublist _)

theorem strip_append_of_mem {c : Char} (hc : c ∈ chars) (l : Str) :
    strip chars (l ++ [c]) = strip chars l := by
  simp only [strip, List.dropWhile_append]
  split
  · rename_i e
    simp [List.isEmpty_iff.mp e, hc, List.rdropWhile_singleton]
  · exact List.rdropWhile_concat_pos _ _ _ (by simpa using hc)

theorem strip_eq_self {s : Str} (hhead : ∀ c ∈ s.head?, c ∉ chars) (hlast : ∀ c ∈ s.getLast?, c ∉ chars) :
    strip chars s = s := by
  have front : s.dropWhile (· ∈ chars) = s := by
    cases s with
    | nil => rfl
    | cons c s => simpa using hhead
  rw [strip, front]
  exact List.rdropWhile_eq_self_iff.mpr fun hs => by simpa [List.getLast?_eq_getLast s hs] using hlast

theorem mem_of_mem_strip {s : Str} {c : Char} (h : c ∈ strip chars s) : c ∈ s :=
  (strip_sublist chars s).subset h

theorem count_strip {a : Char} (ha : a ∉ chars) (s : Str) : (strip chars s).count a = s.count a := by
  have drop : ∀ l : Str, (l.dropWhile (· ∈ chars)).count a = l.count a := fun l => by
    have whole := congrArg (List.count a) (List.takeWhile_append_dropWhile (· ∈ chars) l)
    rw [List.count_append, List.count_eq_zero_of_not_mem fun m => ha (by
      simpa using List.mem_takeWhile_imp m)] at whole
    omega
  simp only [strip, List.rdropWhile, List.count_reverse, drop]

theorem prefix_head? {x y : Str} (h : x <+: y) : x.head? = none ∨ x.head? = y.head? := by
  obtain ⟨t, rfl⟩ := h; cases x <;> simp

theorem strip_head_not_mem {s : Str} {c : Char} (h : c ∈ (strip chars s).head?) : c ∉ chars := by
  have front := List.head?_dropWhile_not (· ∈ chars) s
  rcases prefix_head? (List.rdropWhile_prefix (· ∈ chars) (s.dropWhile (· ∈ chars))) with e | e
  · simp [strip, e] at h
  · rw [strip, e, Option.mem_def] at h
    rw [h] at front
    simpa using front

theorem strip_last_not_mem {s : Str} {c : Char} (h : c ∈ (strip chars s).getLast?) : c ∉ chars := by
  have hne : strip chars s ≠ [] := by rintro e; simp [e] at h
  have back := List.rdropWhile_last_not (p := (· ∈ chars)) (l := s.dropWhile (· ∈ chars)) hne
  rw [List.getLast?_eq_getLast _ hne, Option.mem_def, Option.some_inj] at h
  subst h
  simpa using back

theorem strip_strip (s : Str) : strip chars (strip chars s) = strip chars s :=
  strip_eq_self chars (fun _ h => strip_head_not_mem chars h) (fun _ h => strip_last_not_mem chars h)

theorem strip_head_mem {s : Str} (hs : ∀ c ∈ s.head?, c ∉ chars) {c : Char}
    (h : c ∈ (strip chars s).head?) : c ∈ s.head? := by
  have front : s.dropWhile (· ∈ chars) = s := by
    cases s with
    | nil => rfl
    | cons d s => simpa using hs
  rcases prefix_head? (List.rdropWhile_prefix (· ∈ chars) s) with e | e
  · simp [strip, front, e] at h
  · simpa [strip, front, e] using h

end Strip

theorem not_mem_of_mem_splitOn {a : Char} {l t : Str} (h : t ∈ l.splitOn a) : a ∉ t := by
  induction l generalizing t with
  | nil => simp_all
  | cons x l ih =>
    simp only [List.splitOn, List.splitOnP_cons] at h ih
    split at h
    · rcases List.mem_cons.mp h with rfl | h
      · simp
      · exact ih h
    · rename_i hx
      cases e : l.splitOnP (· == a) with
      | nil => exact absurd e (List.splitOnP_ne_nil _ _)
      | cons u us =>
        rw [e] at h ih
        simp only [List.modifyHead_cons, List.mem_cons] at h
        rcases h with rfl | h
        · simp only [List.mem_cons, not_or]
          exact ⟨fun e' => hx (by simp [e']), ih (List.mem_cons_self u us)⟩
        · exact ih (List.mem_cons_of_mem u h)

theorem splitOn_eq_pair {a : Char} {l x y : Str} :
    l.splitOn a = [x, y] ↔ l = x ++ a :: y ∧ a ∉ x ∧ a ∉ y := by
  constructor
  · intro h
    refine ⟨?_, not_mem_of_mem_splitOn (t := x) (by rw [h]; simp),
      not_mem_of_mem_splitOn (t := y) (by rw [h]; simp)⟩
    have := List.intercalate_splitOn l a
    rw [h] at this
    simpa [List.intercalate] using this.symm
  · rintro ⟨rfl, hx, hy⟩
    simp only [List.splitOn]
    have away : ∀ {t : Str}, a ∉ t → ∀ c ∈ t, ¬ (c == a) = true := fun ht c hc e =>
      ht (by simpa [beq_iff_eq.mp e] using hc)
    rw [List.splitOnP_first _ _ (away hx) a (by simp), List.splitOnP_eq_single _ _ (away hy)]

namespace Dict

theorem keys_insert {d : Dict} {k : Str} (h : d.any (·.1 = k)) (v : Str) :
    (Dict.insert d k v).map Prod.fst = d.map Prod.fst := by
  simp only [Dict.insert, h, if_true, List.map_map]
  exact List.map_congr_left fun e _ => by by_cases he : e.1 = k <;> simp [he]

theorem insert_of_not_mem {d : Dict} {k : Str} (h : k ∉ d.map Prod.fst) (v : Str) :
    Dict.insert d k v = d ++ [(k, v)] := by
  have : ¬ d.any (·.1 = k) := by simpa using h
  simp [Dict.insert, this]

theorem keys_insert_nodup {d : Dict} (h : (d.map Prod.fst).Nodup) (k v : Str) :
    ((Dict.insert d k v).map Prod.fst).Nodup := by
  by_cases hk : d.any (·.1 = k)
  · rwa [keys_insert hk]
  · have hk' : k ∉ d.map Prod.fst := by simpa using hk
    rw [insert_of_not_mem hk']
    simpa [List.nodup_append, hk'] using h

theorem mem_insert {d : Dict} {k v : Str} {e : Str × Str} (h : e ∈ Dict.insert d k v) :
    e = (k, v) ∨ e ∈ d := by
  unfold Dict.insert at h
  split at h
  · obtain ⟨e', he', rfl⟩ := List.mem_map.mp h
    by_cases hk : e'.1 = k <;> simp [hk, he']
  · simpa [or_comm] using h

theorem key_mem_insert {d : Dict} {k : Str} (h : k ∈ d.map Prod.fst) (k' v : Str) :
    k ∈ (Dict.insert d k' v).map Prod.fst := by
  by_cases hk : d.any (·.1 = k')
  · rwa [keys_insert hk]
  · rw [insert_of_not_mem (by simpa using hk)]
    simp [h]

theorem key_mem_update {d : Dict} {k : Str} (h : k ∈ d.map Prod.fst) (e : Dict) :
    k ∈ (d.update e).map Prod.fst := by
  induction e generalizing d with
  | nil => exact h
  | cons kv e ih => exact ih (key_mem_insert h kv.1 kv.2)

theorem lookup_isSome {d : Dict} {k : Str} (h : k ∈ d.map Prod.fst) : (d.lookup k).isSome := by
  obtain ⟨e, he, rfl⟩ := List.mem_map.mp h
  have found : (d.find? (·.1 = e.1)).isSome := List.find?_isSome.mpr ⟨e, he, by simp⟩
  simpa [lookup] using found

theorem mem_of_lookup {d : Dict} {k v : Str} (h : d.lookup k = some v) : (k, v) ∈ d := by
  simp only [lookup, Option.map_eq_some'] at h
  obtain ⟨e, he, rfl⟩ := h
  have key : e.1 = k := by simpa using List.find?_some he
  rw [← key]
  exact List.mem_of_find?_eq_some he

theorem values_insert {P : Str → Prop} {d : Dict} (hd : ∀ kv ∈ d, P kv.2) (k : Str) {v : Str}
    (hv : P v) : ∀ kv ∈ Dict.insert d k v, P kv.2 := fun kv h => by
  rcases mem_insert h with rfl | h
  · exact hv
  · exact hd kv h

theorem values_update {P : Str → Prop} {d e : Dict} (hd : ∀ kv ∈ d, P kv.2) (he : ∀ kv ∈ e, P kv.2) :
    ∀ kv ∈ d.update e, P kv.2 := by
  induction e generalizing d with
  | nil => exact hd
  | cons x e ih =>
    exact ih (values_insert hd x.1 (he x (List.mem_cons_self x e))) fun kv h => he kv (List.mem_cons_of_mem x h)

theorem update_of_nodup {a d : Dict} (h : ((a ++ d).map Prod.fst).Nodup) :
    a.update d = a ++ d := by
  induction d generalizing a with
  | nil => simp [update]
  | cons e d ih =>
    have fresh : e.1 ∉ a.map Prod.fst := by
      simp only [List.map_append, List.map_cons, List.nodup_append, List.nodup_cons] at h
      exact fun m => h.2.2 m (List.mem_cons_self _ _)
    have step : Dict.insert a e.1 e.2 = a ++ [e] := insert_of_not_mem fresh e.2
    simp only [update, List.foldl_cons, step] at ih ⊢
    simpa using ih (a := a ++ [e]) (by simpa using h)

end Dict

end MagiskBuild
