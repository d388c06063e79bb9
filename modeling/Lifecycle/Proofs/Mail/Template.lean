import Lifecycle.Proofs.Mail.Renaming
import Mathlib.Data.List.Infix
import Mathlib.Data.List.TakeWhile
import Mathlib.Data.String.Basic

/-!
# Templates in one pass

A template is filled in from the left: what is filled in for the first part of it does not depend on what follows, and is not
read again. Templates of which the first does not end in the middle of opening braces are filled in one after the other
(`renderFrom_append`). A template can be filled in unless there are opening braces outside of earlier placeholders that are not
closed, or that have only white space up to the next closing braces; the first such place tells the fault.
-/

namespace Lifecycle

namespace Text

/-- All is trimmed away only of white space. -/
theorem trimChars_eq_nil_iff {cs : List Char} : trimChars cs = [] ↔ ∀ c ∈ cs, isSpace c = true := by
  unfold trimChars
  rw [List.reverse_eq_nil_iff, List.dropWhile_eq_nil_iff]
  refine ⟨fun h c hc => ?_, fun h c hc => h c (List.dropWhile_subset _ (List.mem_reverse.1 hc))⟩
  rw [← List.takeWhile_append_dropWhile (p := isSpace) (l := cs)] at hc
  rcases List.mem_append.1 hc with hc | hc
  · exact List.mem_takeWhile_imp hc
  · exact h c (List.mem_reverse.2 hc)

end Text

namespace Template

variable {context : Json} {start : Nat}

/-! ### Braces -/

/-- Two of the brace stand next to each other in the text. -/
def Doubled (brace : Char) (cs : List Char) : Prop := [brace, brace] <:+: cs

instance (brace : Char) (cs : List Char) : Decidable (Doubled brace cs) := List.decidableInfix _ cs

theorem not_doubled_nil (brace : Char) : ¬Doubled brace [] := by simp [Doubled]

theorem doubled_cons_iff {brace c : Char} {cs : List Char} :
    Doubled brace (c :: cs) ↔ (c = brace ∧ cs.head? = some brace) ∨ Doubled brace cs := by
  unfold Doubled
  rw [List.infix_cons_iff]
  refine or_congr_left ?_
  cases cs with
  | nil => simp
  | cons d ds => simp [eq_comm]

/-- A path that holds no closing braces, nor ends in the middle of them, is closed by the braces behind it. -/
theorem close?_of_path {path : List Char} (h : ¬Doubled '}' (path ++ ['}'])) (after : List Char) :
    close? (path ++ '}' :: '}' :: after) = some (path, after) := by
  induction path with
  | nil => rfl
  | cons c path ih =>
    rw [List.cons_append, doubled_cons_iff, not_or] at h
    obtain ⟨hc, hpath⟩ := h
    have hopen : ∀ rest, c = '}' → path ++ '}' :: '}' :: after = '}' :: rest → False := by
      rintro rest rfl hrest
      refine hc ⟨rfl, ?_⟩
      cases path with
      | nil => rfl
      | cons d path => rw [List.cons_append, (List.cons.inj hrest).1, List.head?_cons]
    rw [List.cons_append, close?.eq_2 _ _ hopen, ih hpath]
    rfl

/-- A path ends at the first closing braces. -/
theorem path_of_close? {rest path after : List Char} (h : close? rest = some (path, after)) :
    rest = path ++ '}' :: '}' :: after ∧ ¬Doubled '}' (path ++ ['}']) := by
  fun_induction close? rest generalizing path with
  | case1 rest =>
    cases h
    exact ⟨rfl, by simp [doubled_cons_iff, not_doubled_nil]⟩
  | case2 c rest hopen ih =>
    obtain ⟨⟨p, a⟩, ha, he⟩ := Option.map_eq_some_iff.1 h
    cases he
    obtain ⟨rfl, hp⟩ := ih ha
    refine ⟨rfl, ?_⟩
    rw [List.cons_append, doubled_cons_iff, not_or]
    refine ⟨?_, hp⟩
    rintro ⟨rfl, hhead⟩
    cases p with
    | nil => exact hopen _ rfl rfl
    | cons d p =>
      cases hhead
      exact hopen _ rfl rfl
  | case3 => cases h

theorem close?_eq_none_iff {rest : List Char} : close? rest = none ↔ ¬Doubled '}' rest := by
  fun_induction close? rest with
  | case1 rest => simp [doubled_cons_iff]
  | case2 c rest hopen ih =>
    have hc : ¬(c = '}' ∧ rest.head? = some '}') := by
      rintro ⟨rfl, hhead⟩
      cases rest with
      | nil => cases hhead
      | cons d rest =>
        cases hhead
        exact hopen rest rfl rfl
    rw [Option.map_eq_none_iff, ih, doubled_cons_iff, or_iff_right hc]
  | case3 => simp [not_doubled_nil]

/-! ### Bytes -/

theorem bytes_eq_utf8Len (cs : List Char) : bytes cs = String.utf8Len cs := by
  induction cs with
  | nil => rfl
  | cons c cs ih =>
    rw [String.utf8Len_cons, ← ih, Nat.add_comm]
    rfl

theorem bytes_cons (c : Char) (cs : List Char) : bytes (c :: cs) = c.utf8Size + bytes cs := rfl

theorem bytes_append (cs ds : List Char) : bytes (cs ++ ds) = bytes cs + bytes ds := by
  simp only [bytes_eq_utf8Len, String.utf8Len_append]

/-- The fault of a template that stands behind `n` bytes. -/
def Fault.behind (n : Nat) : Fault → Fault
  | .unclosed byte => .unclosed (n + byte)
  | .empty => .empty

theorem renderFrom_add (n : Nat) (cs : List Char) :
    renderFrom context (n + start) cs = (renderFrom context start cs).mapError (·.behind n) := by
  fun_induction renderFrom context start cs with
  | case1 start =>
    rw [renderFrom]
    rfl
  | case2 start rest hclose =>
    rw [renderFrom_unclosed hclose]
    rfl
  | case3 start rest path after hclose name hempty =>
    rw [renderFrom_closed hclose, if_pos hempty]
    rfl
  | case4 start rest path after hclose name hname ih =>
    rw [renderFrom_closed hclose, if_neg hname, Nat.add_assoc n, Nat.add_assoc n, ih]
    cases renderFrom context (start + 4 + bytes path) after <;> rfl
  | case5 start c rest hopen ih =>
    rw [renderFrom.eq_3 _ _ _ _ hopen, Nat.add_assoc n, ih]
    cases renderFrom context (start + c.utf8Size) rest <;> rfl

/-! ### One after the other -/

theorem map_append_append (x : Except Fault (List Char)) (a b : List Char) :
    (x.map (b ++ ·)).map (a ++ ·) = x.map (a ++ b ++ ·) := by
  cases x with
  | error f => rfl
  | ok cs => exact congrArg Except.ok (List.append_assoc a b cs).symm

/-- Only white space. -/
def Blank (path : List Char) : Prop := ∀ c ∈ path, Text.isSpace c = true

instance (path : List Char) : Decidable (Blank path) := List.decidableBAll _ path

theorem isEmpty_trimChars_iff {path : List Char} : (Text.trimChars path).isEmpty = true ↔ Blank path := by
  rw [List.isEmpty_iff, Text.trimChars_eq_nil_iff]
  rfl

theorem renderFrom_blank {path : List Char} (h : ¬Doubled '}' (path ++ ['}'])) (blank : Blank path) (after : List Char) :
    renderFrom context start ('{' :: '{' :: (path ++ '}' :: '}' :: after)) = .error .empty := by
  rw [renderFrom_closed (close?_of_path h after), if_pos (isEmpty_trimChars_iff.2 blank)]

theorem renderFrom_path {path : List Char} (h : ¬Doubled '}' (path ++ ['}'])) (named : ¬Blank path) (after : List Char) :
    renderFrom context start ('{' :: '{' :: (path ++ '}' :: '}' :: after)) =
      (renderFrom context (start + 4 + bytes path) after).map (fill (lookup context (Text.trimChars path)) ++ ·) := by
  rw [renderFrom_closed (close?_of_path h after), if_neg (mt isEmpty_trimChars_iff.1 named)]

/-- No opening braces begin in the one text and end in the other. -/
def Apart (s t : List Char) : Prop := ¬(s.getLast? = some '{' ∧ t.head? = some '{')

theorem Apart.of_append {r s t : List Char} (h : Apart (r ++ s) t) : Apart s t := by
  rintro ⟨hs, ht⟩
  exact h ⟨by rw [List.getLast?_append, hs]; rfl, ht⟩

theorem Apart.append {r s t : List Char} (hr : Apart r t) (hs : Apart s t) : Apart (r ++ s) t := by
  rintro ⟨hlast, ht⟩
  rw [List.getLast?_append, Option.or_eq_some_iff] at hlast
  rcases hlast with hlast | ⟨-, hlast⟩
  · exact hs ⟨hlast, ht⟩
  · exact hr ⟨hlast, ht⟩

/-- Nothing is begun behind a placeholder. -/
theorem apart_of_placeholder (path t : List Char) : Apart ('{' :: '{' :: (path ++ ['}', '}'])) t := by
  rintro ⟨hlast, -⟩
  simp [List.getLast?_cons] at hlast

/-- What does not begin with opening braces does not begin with them in front of a text apart from it. -/
theorem Apart.open_iff {c : Char} {rest t : List Char} (h : Apart (c :: rest) t) :
    (c = '{' ∧ (rest ++ t).head? = some '{') ↔ (c = '{' ∧ rest.head? = some '{') := by
  cases rest with
  | nil =>
    refine ⟨?_, fun h => nomatch h.2⟩
    rintro ⟨rfl, hhead⟩
    exact (h ⟨rfl, hhead⟩).elim
  | cons d rest => rfl

/-- A character that does not begin opening braces is filled in as it is. -/
theorem renderFrom_char {c : Char} {rest : List Char} (h : ¬(c = '{' ∧ rest.head? = some '{')) :
    renderFrom context start (c :: rest) = (renderFrom context (start + c.utf8Size) rest).map (c :: ·) := by
  refine renderFrom.eq_3 _ _ _ _ ?_
  rintro rest' rfl rfl
  exact h ⟨rfl, rfl⟩

theorem bytes_placeholder (path after : List Char) :
    bytes ('{' :: '{' :: (path ++ '}' :: '}' :: after)) = 4 + bytes path + bytes after := by
  have brace : '{'.utf8Size = 1 ∧ '}'.utf8Size = 1 := by decide
  rw [bytes_cons, bytes_cons, bytes_append, bytes_cons, bytes_cons, brace.1, brace.2]
  omega

/-- Templates that are apart are filled in one after the other. -/
theorem renderFrom_append {s t text : List Char} (h : renderFrom context start s = .ok text) (apart : Apart s t) :
    renderFrom context start (s ++ t) = (renderFrom context (start + bytes s) t).map (text ++ ·) := by
  -- along the pass over `s`: in front of `t` it takes the same steps, for no braces are cut in two
  fun_induction renderFrom context start s generalizing text with
  | case1 start =>
    cases h
    show renderFrom context start t = (renderFrom context start t).map _
    cases renderFrom context start t <;> rfl
  | case2 start rest hclose => cases h
  | case3 start rest path after hclose name => cases h
  | case4 start rest path after hclose name hname =>
    rename_i ih
    obtain ⟨filled, hfilled, rfl⟩ := map_ok h
    obtain ⟨rfl, hpath⟩ := path_of_close? hclose
    have hafter := ih hfilled (Apart.of_append (r := '{' :: '{' :: (path ++ ['}', '}'])) (by simpa using apart))
    have hclose' := close?_of_path hpath (after ++ t)
    rw [bytes_placeholder, List.cons_append, List.cons_append, List.append_assoc, List.cons_append, List.cons_append,
      renderFrom_closed hclose', if_neg hname, hafter, map_append_append, ← Nat.add_assoc, ← Nat.add_assoc]
  | case5 start c rest hopen =>
    rename_i ih
    obtain ⟨filled, hfilled, rfl⟩ := map_ok h
    have hchar : ¬(c = '{' ∧ rest.head? = some '{') := by
      rintro ⟨rfl, hhead⟩
      cases rest with
      | nil => cases hhead
      | cons d rest =>
        cases hhead
        exact hopen rest rfl rfl
    rw [List.cons_append, renderFrom_char (mt apart.open_iff.1 hchar), ih hfilled (Apart.of_append (r := [c]) apart),
      bytes_cons, Nat.add_assoc]
    exact map_append_append _ [c] filled

/-- A text without opening braces is filled in as it is. -/
theorem renderFrom_plain {cs : List Char} (h : ¬Doubled '{' cs) : renderFrom context start cs = .ok cs := by
  induction cs generalizing start with
  | nil => rw [renderFrom]
  | cons c cs ih =>
    rw [doubled_cons_iff, not_or] at h
    rw [renderFrom_char h.1, ih h.2]
    rfl

/-! ### What cannot be filled in -/

/-- `before` leads to a place outside of the placeholders in it, of which `paths` are the paths: it is a text, or a text and a
placeholder in front of what does the same. The text goes on up to the next opening braces, and the path up to the next closing
braces. -/
inductive Outside : (paths : List (List Char)) → (before : List Char) → Prop where
  | text {text : List Char} (h : ¬Doubled '{' (text ++ ['{'])) : Outside [] text
  | placeholder {text path before : List Char} {paths : List (List Char)} (ht : ¬Doubled '{' (text ++ ['{']))
    (hp : ¬Doubled '}' (path ++ ['}'])) (h : Outside paths before) :
    Outside (path :: paths) (text ++ '{' :: '{' :: (path ++ '}' :: '}' :: before))

theorem apart_of_text {text : List Char} (h : ¬Doubled '{' (text ++ ['{'])) (t : List Char) : Apart text t := by
  rintro ⟨hlast, -⟩
  obtain ⟨front, rfl⟩ := List.getLast?_eq_some_iff.1 hlast
  exact h ⟨front, [], by simp⟩

theorem Doubled.append {brace : Char} {s : List Char} (h : Doubled brace s) (t : List Char) : Doubled brace (s ++ t) :=
  h.trans (List.prefix_append s t).isInfix

/-- What leads to a place outside of placeholders can be filled in, unless there is only white space in one of them, and does
not end in the middle of opening braces. -/
theorem Outside.renders {paths : List (List Char)} {before : List Char} (h : Outside paths before)
    (named : ∀ path ∈ paths, ¬Blank path) (context : Json) (start : Nat) :
    (∃ text, renderFrom context start before = .ok text) ∧ ∀ t, Apart before t := by
  induction h generalizing start with
  | text h => exact ⟨⟨_, renderFrom_plain fun hd => h (hd.append _)⟩, apart_of_text h⟩
  | @placeholder text path before paths ht hp _ ih =>
    obtain ⟨hpath, hpaths⟩ := List.forall_mem_cons.1 named
    obtain ⟨⟨filled, hfilled⟩, apart⟩ := ih hpaths (start + bytes text + 4 + bytes path)
    refine ⟨⟨text ++ (fill (lookup context (Text.trimChars path)) ++ filled), ?_⟩, fun t => ?_⟩
    · rw [renderFrom_append (renderFrom_plain fun hd => ht (hd.append _)) (apart_of_text ht _), renderFrom_path hp hpath, hfilled]
      rfl
    · have hpieces : text ++ '{' :: '{' :: (path ++ '}' :: '}' :: before) =
          text ++ ('{' :: '{' :: (path ++ ['}', '}']) ++ before) := by simp
      rw [hpieces]
      exact (apart_of_text ht t).append ((apart_of_placeholder path t).append (apart t))

theorem Outside.cons {paths : List (List Char)} {before : List Char} {c : Char} (h : Outside paths before)
    (hc : ¬(c = '{' ∧ (before ++ ['{']).head? = some '{')) : Outside paths (c :: before) := by
  cases h with
  | text h => exact .text (by rw [List.cons_append, doubled_cons_iff]; exact not_or.2 ⟨hc, h⟩)
  | @placeholder text path before paths ht hp h =>
    refine @Outside.placeholder (c :: text) path before paths ?_ hp h
    rw [List.cons_append, doubled_cons_iff]
    refine not_or.2 ⟨?_, ht⟩
    cases text with
    | nil => exact hc
    | cons d text => exact hc

/-- What follows opening braces behind `place` bytes cannot be filled in: they are not closed, or there is only white space up
to the next closing braces. -/
inductive Faulty (place : Nat) : List Char → Fault → Prop where
  | unclosed {rest : List Char} (h : ¬Doubled '}' rest) : Faulty place rest (.unclosed place)
  | blank {path after : List Char} (hp : ¬Doubled '}' (path ++ ['}'])) (h : Blank path) :
    Faulty place (path ++ '}' :: '}' :: after) .empty

theorem renderFrom_of_faulty {rest : List Char} {fault : Fault} (h : Faulty start rest fault) :
    renderFrom context start ('{' :: '{' :: rest) = .error fault := by
  cases h with
  | unclosed h => exact renderFrom_unclosed (close?_eq_none_iff.2 h)
  | blank hp h => exact renderFrom_blank hp h _

theorem map_error {α β : Type} {x : Except Fault α} {f : α → β} {fault : Fault} (h : x.map f = .error fault) :
    x = .error fault := by
  cases x with
  | error e => exact congrArg _ (Except.error.inj h)
  | ok cs => cases h

/-- A template cannot be filled in if and only if there is such a fault outside of the placeholders in front of it. -/
theorem renderFrom_eq_error_iff {cs : List Char} {fault : Fault} : renderFrom context start cs = .error fault ↔
    ∃ paths before rest, cs = before ++ '{' :: '{' :: rest ∧ Outside paths before ∧ (∀ path ∈ paths, ¬Blank path) ∧
      Faulty (start + bytes before) rest fault := by
  constructor
  · intro h
    -- along the pass, which goes through what stands in front of the fault
    fun_induction renderFrom context start cs with
    | case1 start => cases h
    | case2 start rest hclose =>
      cases h
      exact ⟨[], [], rest, rfl, .text (by simp [doubled_cons_iff, not_doubled_nil]), by simp,
        .unclosed (close?_eq_none_iff.1 hclose)⟩
    | case3 start rest path after hclose name hname =>
      cases h
      obtain ⟨rfl, hpath⟩ := path_of_close? hclose
      exact ⟨[], [], _, rfl, .text (by simp [doubled_cons_iff, not_doubled_nil]), by simp,
        .blank hpath (isEmpty_trimChars_iff.1 hname)⟩
    | case4 start rest path after hclose name hname ih =>
      obtain ⟨rfl, hpath⟩ := path_of_close? hclose
      obtain ⟨paths, before, rest, rfl, hbefore, named, hfault⟩ := ih (map_error h)
      refine ⟨path :: paths, _, rest, ?_, @Outside.placeholder [] _ _ _ ?_ hpath hbefore, ?_, ?_⟩
      · simp
      · simp [doubled_cons_iff, not_doubled_nil]
      · exact List.forall_mem_cons.2 ⟨mt isEmpty_trimChars_iff.2 hname, named⟩
      · rw [List.nil_append, bytes_placeholder]
        rwa [← Nat.add_assoc, ← Nat.add_assoc]
    | case5 start c rest hopen ih =>
      obtain ⟨paths, before, rest, rfl, hbefore, named, hfault⟩ := ih (map_error h)
      refine ⟨paths, c :: before, rest, rfl, hbefore.cons ?_, named, ?_⟩
      · rintro ⟨rfl, hhead⟩
        cases before with
        | nil => exact hopen _ rfl rfl
        | cons d before =>
          cases hhead
          exact hopen _ rfl rfl
      · rw [bytes_cons, ← Nat.add_assoc]
        exact hfault
  · rintro ⟨paths, before, rest, rfl, hbefore, named, hfault⟩
    obtain ⟨⟨text, htext⟩, apart⟩ := hbefore.renders named context start
    rw [renderFrom_append htext (apart _), renderFrom_of_faulty hfault]
    rfl

/-! ### Whole templates -/

theorem render_eq_ok_iff {s text : String} : render s context = .ok text ↔ renderFrom context 0 s.toList = .ok text.toList := by
  unfold render
  constructor
  · intro h
    obtain ⟨filled, hfilled, rfl⟩ := map_ok h
    rw [hfilled, String.toList_ofList]
  · intro h
    rw [h]
    exact congrArg Except.ok String.ofList_toList

theorem render_eq_error_iff {s : String} {fault : Fault} :
    render s context = .error fault ↔ renderFrom context 0 s.toList = .error fault := by
  unfold render
  refine ⟨map_error, fun h => ?_⟩
  rw [h]
  rfl

theorem render_append {s t text : String} (h : render s context = .ok text) (apart : Apart s.toList t.toList) :
    render (s ++ t) context = ((render t context).map (text ++ ·)).mapError (·.behind s.utf8ByteSize) := by
  have happend := renderFrom_append (render_eq_ok_iff.1 h) apart
  rw [Nat.zero_add, bytes_eq_utf8Len, String.utf8Len_toList, ← Nat.add_zero s.utf8ByteSize, renderFrom_add] at happend
  unfold render
  rw [String.toList_append, happend]
  cases renderFrom context 0 t.toList with
  | error e => rfl
  | ok cs => simp [Except.map, Except.mapError]

/-- A path between double braces. -/
def placeholder (path : String) : String := String.ofList ('{' :: '{' :: (path.toList ++ ['}', '}']))

theorem render_placeholder {path : String} (h : ¬Doubled '}' (path.toList ++ ['}'])) (named : ¬Blank path.toList) :
    render (placeholder path) context = .ok (String.ofList (fill (lookup context (Text.trimChars path.toList)))) := by
  unfold render placeholder
  rw [String.toList_ofList, renderFrom_path h named, renderFrom]
  exact congrArg Except.ok (congrArg String.ofList (List.append_nil _))

/-- Templates are filled in by a single pass. Two of them, the first of which can be filled in and does not end in the middle of
opening braces, are filled in one after the other, and a fault of the second one is told behind the bytes of the first. A text
without opening braces stands for itself, and a placeholder whose path leads to a text stands for exactly that text, whatever
is in it. A template cannot be filled in if and only if there are opening braces outside of the placeholders in front of them,
in none of which there is only white space, that are not closed, or have only white space up to the next closing braces. -/
theorem rendering_is_one_pass (context : Json) :
    (∀ s t text : String, render s context = .ok text → ¬(s.toList.getLast? = some '{' ∧ t.toList.head? = some '{') →
      render (s ++ t) context = ((render t context).map (text ++ ·)).mapError (·.behind s.utf8ByteSize)) ∧
    (∀ s : String, ¬Doubled '{' s.toList → render s context = .ok s) ∧
    (∀ s t text path value : String, render s context = .ok text → s.toList.getLast? ≠ some '{' →
      ¬Doubled '}' (path.toList ++ ['}']) → ¬Blank path.toList →
      lookup context (Text.trimChars path.toList) = some (.str value) →
      render (s ++ placeholder path ++ t) context =
        ((render t context).map (text ++ value ++ ·)).mapError (·.behind (s ++ placeholder path).utf8ByteSize)) ∧
    ∀ (s : String) (fault : Fault), render s context = .error fault ↔
      ∃ paths before rest, s.toList = before ++ '{' :: '{' :: rest ∧ Outside paths before ∧ (∀ path ∈ paths, ¬Blank path) ∧
        Faulty (String.ofList before).utf8ByteSize rest fault := by
  refine ⟨fun s t text => render_append, fun s plain => ?_, fun s t text path value hs apart closed named leads => ?_,
    fun s fault => ?_⟩
  · exact render_eq_ok_iff.2 (renderFrom_plain plain)
  · have hfilled : render (placeholder path) context = .ok value := by
      rw [render_placeholder closed named, leads]
      exact congrArg Except.ok String.ofList_toList
    have hboth : render (s ++ placeholder path) context = .ok (text ++ value) := by
      rw [render_append hs fun h => apart h.1, hfilled]
      rfl
    refine render_append hboth ?_
    rw [String.toList_append]
    unfold placeholder
    rw [String.toList_ofList]
    exact Apart.append (fun h => apart h.1) (apart_of_placeholder _ _)
  · rw [render_eq_error_iff, renderFrom_eq_error_iff]
    simp only [Nat.zero_add, bytes_eq_utf8Len, String.utf8ByteSize_ofList]

/-- What is filled in is not read again, and a fault is told behind the bytes in front of it. -/
theorem rendering_is_one_pass_of_braces :
    let context := Json.obj [("user", .obj [("name", .str "\x7b\x7bx\x7d\x7d")])]
    render ("Hi " ++ placeholder "user.name" ++ "!") context = .ok "Hi \x7b\x7bx\x7d\x7d!" ∧
      render "é\x7b\x7bx" context = .error (.unclosed 2) := by
  intro context
  obtain ⟨-, plain, filled, faulty⟩ := rendering_is_one_pass context
  have hbegin : render "Hi " context = .ok "Hi " := plain "Hi " (by decide)
  have hend : render "!" context = .ok "!" := plain "!" (by decide)
  refine ⟨?_, (faulty _ _).2 ?_⟩
  · have leads : lookup context (Text.trimChars "user.name".toList) = some (.str "\x7b\x7bx\x7d\x7d") := by decide +kernel
    have closed : ¬Doubled '}' ("user.name".toList ++ ['}']) := by decide +kernel
    rw [filled "Hi " "!" "Hi " "user.name" _ hbegin (by decide) closed (by decide) leads, hend]
    decide +kernel
  · refine ⟨[], ['é'], ['x'], by decide, .text (by decide), nofun, ?_⟩
    exact @Faulty.unclosed 2 _ (by decide)

end Template

end Lifecycle
