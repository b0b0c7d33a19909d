import Mathlib.Data.List.TakeWhile
import Tierwise.Yaml.Token

/-! # Scanning rows of words

A row in block style whose key and value are words is read in three steps, which leave the scanner at the start of the
next line as it was found at the start of this one. Where tables begin and end is decided by the columns of the rows
alone.
-/

namespace Tierwise.Yaml

/-- Characters that stand for themselves wherever they occur. -/
def isLetter (c : Char) : Bool := c.isAlphanum || c == '_'

section Letter

variable {c d : Char} (hc : isLetter c = true)

include hc

theorem ne_of_isLetter (hd : isLetter d = false) : c ≠ d := by
  rintro rfl
  simp [hc] at hd

theorem isSpace_of_isLetter : isSpace c = false := by
  simp [isSpace, isBlank, isBreak, ne_of_isLetter hc, isLetter]

theorem isIndicator_of_isLetter : isIndicator c = false := by
  simp [isIndicator, isFlowMark, ne_of_isLetter hc, isLetter]

theorem isMarker_of_isLetter (hd : isLetter d = false) (m : Mark) (r : List Char) : isMarker d m (c :: r) = false := by
  simp [isMarker, ne_of_isLetter hc hd]

end Letter

/-- A text that is over or goes on with a letter. -/
def AtWord (rest : List Char) : Prop := ∀ c ∈ rest.head?, isLetter c = true

theorem toToken_of_atWord {rest : List Char} (h : AtWord rest) (flow keyAllowed : Bool) (m : Mark) :
    toToken flow false keyAllowed m rest = (keyAllowed, ⟨m, rest⟩) := by
  cases rest with
  | nil => rfl
  | cons c r =>
    have hc : isLetter c = true := h c rfl
    have hbreak : isBreak c = false := by simp [isBreak, ne_of_isLetter hc, isLetter]
    simp [toToken, hbreak, ne_of_isLetter hc, isLetter]

theorem Mark.column_right (m : Mark) (count : Nat) : (m.right count).column = m.column + count := rfl

theorem Mark.column_down (m : Mark) : m.down.column = 0 := rfl

theorem Mark.right_right (m : Mark) (a b : Nat) : (m.right a).right b = m.right (a + b) := by
  simp [Mark.right, Nat.add_assoc]

/-! ## Words -/

/-- A word that needs no quotes. -/
structure Word where
  text : List Char
  ne_nil : text ≠ []
  letters : ∀ c ∈ text, isLetter c = true

/-- A word that is short enough to be a key. -/
structure Key extends Word where
  short : text.length ≤ 1024

theorem Word.atWord (w : Word) (r : List Char) : AtWord (w.text ++ r) := by
  obtain ⟨c, cs, hw⟩ := List.exists_cons_of_ne_nil w.ne_nil
  simpa [AtWord, hw] using w.letters c (by simp [hw])

@[simp] theorem Gap.isEmpty_empty : Gap.empty.isEmpty = true := by decide

@[simp] theorem Gap.isBroken_empty : Gap.empty.isBroken = false := rfl

@[simp] theorem Gap.text_empty : Gap.empty.text = [] := rfl

theorem plain?_letters {cs : List Char} (h : ∀ c ∈ cs, isLetter c = true) (floor : Nat) (m : Mark) (r : List Char) :
    plain? false floor .empty m (cs ++ r) =
      (plain? false floor .empty (m.right cs.length) r).map fun p => { p with text := cs ++ p.text } := by
  induction cs generalizing m with
  | nil => simp [Mark.right]
  | cons c cs ih =>
    have hc : isLetter c = true := h c List.mem_cons_self
    have hcs : ∀ c ∈ cs, isLetter c = true := fun c hmem => h c (List.mem_cons_of_mem _ hmem)
    rw [List.cons_append, plain?]
    have hcolon : c ≠ ':' := ne_of_isLetter hc (by decide)
    simp [isSpace_of_isLetter hc, hcolon, ih hcs, Mark.right_right, Nat.add_comm, Function.comp_def]

theorem plain?_colon {r : List Char} (h : wordEnds r = true) (floor : Nat) (m : Mark) :
    plain? false floor .empty m (':' :: r) = some ⟨[], false, ⟨m, ':' :: r⟩⟩ := by
  rw [plain?]
  simp +decide [h]

/-- Blanks at the start of a line belong to no word. -/
theorem plain?_blanks (d floor : Nat) (first : Option Char) (m : Mark) (r : List Char) :
    plain? false floor (.broken first []) m (List.replicate d ' ' ++ r) =
      plain? false floor (.broken first []) (m.right d) r := by
  induction d generalizing m with
  | zero => simp [Mark.right]
  | succ d ih =>
    rw [List.replicate_succ, List.cons_append, plain?]
    simp +decide [Gap.add, Mark.past, ih, Mark.right_right, Nat.add_comm]

theorem plain?_break {d floor : Nat} {r : List Char} (hd : d < floor) (hr : AtWord r) (m : Mark) :
    plain? false floor .empty m ('\n' :: (List.replicate d ' ' ++ r)) =
      some ⟨[], true, ⟨m.down.right d, r⟩⟩ := by
  rw [plain?]
  simp +decide only [Gap.empty, Gap.add, Mark.past, plain?_blanks, ↓reduceIte]
  cases r with
  | nil => simp [plain?, Gap.isBroken]
  | cons c r =>
    rw [plain?]
    simp +decide [isSpace_of_isLetter (hr c rfl), Gap.isEmpty, Gap.empty, Mark.column_right, Mark.column_down, hd,
      Gap.isBroken]

/-- A key and its colon at column `d`. -/
def label (d : Nat) (k : Key) (r : List Char) : List Char := List.replicate d ' ' ++ (k.text ++ ':' :: r)

/-- The text goes on with a line at column `d` or left of it. -/
def Follows (d : Nat) (rest : List Char) : Prop := ∃ e w, e ≤ d ∧ rest = List.replicate e ' ' ++ w ∧ AtWord w

theorem follows_label (d : Nat) (k : Key) (r : List Char) : Follows d (label d k r) :=
  ⟨d, _, le_rfl, rfl, k.atWord _⟩

theorem follows_nil (d : Nat) : Follows d [] := ⟨0, [], Nat.zero_le d, rfl, by simp [AtWord]⟩

theorem Follows.mono {d e : Nat} {rest : List Char} (h : Follows d rest) (hde : d ≤ e) : Follows e rest := by
  obtain ⟨i, w, hi, hrest, hw⟩ := h
  exact ⟨i, w, hi.trans hde, hrest, hw⟩

/-! ## The scanner between tokens -/

namespace Scanner

/-- A scanner outside every table in flow style that waits for no colon. -/
def paused (keyAllowed : Bool) (m : Mark) (rest : List Char) (tokens : List Token) (indents : List Nat) : Scanner :=
  { cursor := ⟨m, rest⟩, tokens, count := tokens.length, indents, keyAllowed }

variable {keyAllowed : Bool} {m : Mark} {rest : List Char} {tokens : List Token} {indents : List Nat}

theorem foldl_push (s : Scanner) (closed : List Nat) :
    closed.foldl (fun s _ => s.push .blockEnd) s =
      { s with
        tokens := List.replicate closed.length .blockEnd ++ s.tokens
        count := s.count + closed.length } := by
  induction closed generalizing s with
  | nil => rfl
  | cons i closed ih =>
    rw [List.foldl_cons, ih]
    simp [push, List.replicate_succ', Nat.add_comm, Nat.add_left_comm]

theorem unroll_paused (p : Nat → Bool) :
    (paused keyAllowed m rest tokens indents).unroll p =
      paused keyAllowed m rest (List.replicate (indents.takeWhile p).length .blockEnd ++ tokens)
        (indents.dropWhile p) := by
  simp [unroll, foldl_push, paused, inFlow, Nat.add_comm]

theorem advance?_paused {keyAllowed' : Bool} {c : Cursor}
    (h : toToken false false keyAllowed m rest = (keyAllowed', c)) :
    (paused keyAllowed m rest tokens indents).advance? =
      some ((paused keyAllowed' c.mark c.rest tokens indents).unroll (c.mark.column < ·)) := by
  simp [advance?, paused, inFlow, h, dropStale?]

theorem unroll_all :
    (paused keyAllowed m rest tokens indents).unroll (fun _ => true) =
      paused keyAllowed m rest (List.replicate indents.length .blockEnd ++ tokens) [] := by
  have htake : indents.takeWhile (fun _ => true) = indents := by simp [List.takeWhile_eq_self_iff]
  have hdrop : indents.dropWhile (fun _ => true) = [] := by simp [List.dropWhile_eq_nil_iff]
  rw [unroll_paused, htake, hdrop]

/-- At the end of the text every open table ends. -/
theorem run?_end (fuel : Nat) :
    run? (fuel + 1) (paused keyAllowed m [] tokens indents) =
      some (tokens.reverse ++ List.replicate indents.length .blockEnd) := by
  have hend : toToken false false keyAllowed m [] = (keyAllowed, ⟨m, []⟩) := rfl
  have hsplit : (indents.takeWhile (m.column < ·)).length + (indents.dropWhile (m.column < ·)).length =
      indents.length := by
    rw [← List.length_append, List.takeWhile_append_dropWhile]
  rw [run?, advance?_paused hend, unroll_paused, Option.bind_some, unroll_all]
  simp [dropKey?, paused, ← hsplit, List.replicate_append_replicate]

/-- Only the next token matters, not what stands in front of it. -/
theorem run?_congr {keyAllowed' : Bool} {m' : Mark} {rest' : List Char}
    (h : toToken false false keyAllowed m rest = toToken false false keyAllowed' m' rest') (fuel : Nat) :
    run? fuel (paused keyAllowed m rest tokens indents) = run? fuel (paused keyAllowed' m' rest' tokens indents) := by
  cases fuel with
  | zero => rfl
  | succ fuel => rw [run?, run?, advance?_paused h, advance?_paused rfl]

theorem run?_break (fuel : Nat) :
    run? fuel (paused keyAllowed m ('\n' :: rest) tokens indents) =
      run? fuel (paused true m.down rest tokens indents) := by
  apply run?_congr
  simp +decide [toToken]

theorem run?_blanks (fuel d : Nat) :
    run? fuel (paused keyAllowed m (List.replicate d ' ' ++ rest) tokens indents) =
      run? fuel (paused keyAllowed (m.right d) rest tokens indents) := by
  apply run?_congr
  induction d generalizing m with
  | zero => rfl
  | succ d ih =>
    simp +decide [List.replicate_succ, toToken, ih, Mark.right_right, Nat.add_comm]

theorem run?_blank (fuel : Nat) :
    run? fuel (paused keyAllowed m (' ' :: rest) tokens indents) =
      run? fuel (paused keyAllowed m.right rest tokens indents) :=
  run?_blanks fuel 1

/-! ## Keys and values -/

variable {k : Key} {v : Word} {r : List Char}

theorem unroll_of_le {s : Scanner} {column : Nat} (h : s.indents.head?.all (· ≤ column) = true) :
    s.unroll (column < ·) = s := by
  have hnone : s.indents.takeWhile (column < ·) = [] ∧ s.indents.dropWhile (column < ·) = s.indents := by
    cases hs : s.indents with
    | nil => simp
    | cons i indents =>
      have hi : i ≤ column := by simpa [hs] using h
      simp [hi]
  simp [unroll, hnone]

theorem token?_word (w : Word) (s : Scanner) (h : s.cursor.rest = w.text ++ r) : s.token? = s.plain? := by
  obtain ⟨c, cs, hw⟩ := List.exists_cons_of_ne_nil w.ne_nil
  have hc : isLetter c = true := w.letters c (by simp [hw])
  have hstart : plainStarts s.inFlow (c :: (cs ++ r)) = true := by
    simp [plainStarts, isSpace_of_isLetter hc, isIndicator_of_isLetter hc]
  rw [hw, List.cons_append] at h
  simp [token?, h, hstart, isMarker_of_isLetter hc, ne_of_isLetter hc, isLetter]

theorem run?_word (w : Word) (h : indents.head?.all (· ≤ m.column) = true) (fuel : Nat) :
    run? (fuel + 1) (paused keyAllowed m (w.text ++ r) tokens indents) =
      (paused keyAllowed m (w.text ++ r) tokens indents).plain?.bind (run? fuel) := by
  have hmore : (paused keyAllowed m (w.text ++ r) tokens indents).cursor.rest.isEmpty = false := by
    simp [paused, w.ne_nil]
  rw [run?, advance?_paused (toToken_of_atWord (w.atWord r) _ _ _), unroll_of_le h, Option.bind_some, hmore,
    token?_word w _ rfl]
  rfl

/-- The scanner behind a key, in front of its colon. -/
def named (m : Mark) (k : Key) (r : List Char) (tokens : List Token) (indents : List Nat) : Scanner :=
  { paused false (m.right k.text.length) (':' :: r) (.scalar k.text .plain :: tokens) indents with
    key := some ⟨m, tokens.length, indents.head? == some m.column⟩ }

theorem plain?_key (hr : wordEnds r = true) :
    (paused true m (k.text ++ ':' :: r) tokens indents).plain? = some (named m k r tokens indents) := by
  simp [plain?, paused, named, saveKey?, dropKey?, inFlow, plain?_letters k.letters, plain?_colon hr, push]

/-- A key is short enough to wait for its colon. -/
theorem advance?_named (h : indents.head?.all (· ≤ m.column) = true) :
    (named m k r tokens indents).advance? = some (named m k r tokens indents) := by
  have hstay : toToken false false false (m.right k.text.length) (':' :: r) =
      (false, ⟨m.right k.text.length, ':' :: r⟩) := by
    simp +decide [toToken]
  have hfresh : KeyStart.isStale ⟨m, tokens.length, indents.head? == some m.column⟩ (m.right k.text.length) = false := by
    have := k.short
    simp [KeyStart.isStale, Mark.right]
    omega
  have hleft : (named m k r tokens indents).indents.head?.all (· ≤ (m.right k.text.length).column) = true := by
    simp only [named, paused, Option.all_eq_true, decide_eq_true_eq] at h ⊢
    exact fun i hi => (h i hi).trans (Nat.le_add_right _ _)
  have hsame : (named m k r tokens indents).dropStale? = some (named m k r tokens indents) := by
    simp [dropStale?, named, paused, hfresh]
  rw [advance?]
  simp only [inFlow, named, paused, List.isEmpty_nil, Bool.not_true, hstay] at hsame hleft ⊢
  rw [hsame, Option.map_some, unroll_of_le hleft]

/-- In an open table the key is put in where the word began. -/
theorem value?_named_open (h : indents.head? = some m.column) :
    (named m k r tokens indents).value? =
      some (paused false (m.right (k.text.length + 1)) r (.value :: .scalar k.text .plain :: .key :: tokens) indents) := by
  simp [value?, named, paused, insert, roll, push, inFlow, h, Cursor.skip, Mark.right_right]

/-- Right of the open tables the start of a table is put in as well. -/
theorem value?_named_new (h : indents.head?.all (· < m.column) = true) :
    (named m k r tokens indents).value? =
      some (paused false (m.right (k.text.length + 1)) r
        (.value :: .scalar k.text .plain :: .key :: .blockStart :: tokens) (m.column :: indents)) := by
  have hplace : tokens.length + 1 + 1 - tokens.length = 2 := by omega
  simp [value?, named, paused, insert, roll, push, inFlow, h, Cursor.skip, Mark.right_right, hplace]

theorem run?_named (hr : wordEnds r = true) (h : indents.head?.all (· ≤ m.column) = true) (fuel : Nat) :
    run? (fuel + 1) (named m k r tokens indents) = (named m k r tokens indents).value?.bind (run? fuel) := by
  have htoken : (named m k r tokens indents).token? = (named m k r tokens indents).value? := by
    simp +decide [token?, named, paused, hr, isMarker]
  rw [run?, advance?_named h, Option.bind_some, htoken]
  rfl

theorem run?_key (hr : wordEnds r = true) (h : indents.head?.all (· ≤ m.column) = true) (fuel : Nat) :
    run? (fuel + 1) (paused true m (k.text ++ ':' :: r) tokens indents) = run? fuel (named m k r tokens indents) := by
  rw [run?_word k.toWord h, plain?_key hr, Option.bind_some]

theorem run?_value {i d : Nat} (hi : i ≤ m.column) (hd : d ≤ i) (hrest : AtWord rest) (fuel : Nat) :
    run? (fuel + 1) (paused false m (v.text ++ '\n' :: (List.replicate d ' ' ++ rest)) tokens (i :: indents)) =
      run? fuel (paused true (m.right v.text.length).down (List.replicate d ' ' ++ rest)
        (.scalar v.text .plain :: tokens) (i :: indents)) := by
  have hplain : (paused false m (v.text ++ '\n' :: (List.replicate d ' ' ++ rest)) tokens (i :: indents)).plain? =
      some (paused true ((m.right v.text.length).down.right d) rest (.scalar v.text .plain :: tokens)
        (i :: indents)) := by
    simp [plain?, paused, saveKey?, inFlow, floor, plain?_letters v.letters,
      plain?_break (Nat.lt_succ_of_le hd) hrest, push]
  rw [run?_word v (by simpa using hi), hplain, Option.bind_some, run?_blanks]

/-! ## Lines

Every lemma below starts and ends at the start of a line. -/

variable {fuel d : Nat} (hm : m.column = 0)

include hm

/-- A row right of the open tables starts one. -/
theorem run?_open (hr : wordEnds r = true) (h : indents.head?.all (· < d) = true) :
    run? fuel (paused true m (label d k r) tokens indents) =
      run? fuel (paused true m (label d k r) (.blockStart :: tokens) (d :: indents)) := by
  have hcol : (m.right d).column = d := by rw [Mark.column_right, hm, Nat.zero_add]
  have hle : indents.head?.all (· ≤ (m.right d).column) = true := by
    simp only [hcol, Option.all_eq_true, decide_eq_true_eq] at h ⊢
    exact fun i hi => (h i hi).le
  have hopen : (d :: indents).head? = some (m.right d).column := by simp [hcol]
  rw [label, run?_blanks, run?_blanks]
  -- the two scanners differ until the colon is read, so less fuel than that has to fail on both sides
  match fuel with
  | 0 => rfl
  | 1 =>
    rw [run?_key hr hle, run?_key hr (by simp [hcol])]
    rfl
  | fuel + 2 =>
    rw [run?_key hr hle, run?_key hr (by simp [hcol]), run?_named hr hle, run?_named hr (by simp [hcol]),
      value?_named_new (by rwa [hcol]), value?_named_open hopen, hcol]

/-- A line left of the innermost table ends it. -/
theorem run?_close {i : Nat} (hrest : Follows d rest) (hi : d < i) :
    run? fuel (paused true m rest tokens (i :: indents)) =
      run? fuel (paused true m rest (.blockEnd :: tokens) indents) := by
  obtain ⟨e, w, he, rfl, hw⟩ := hrest
  have hcol : (m.right e).column < i := by
    rw [Mark.column_right, hm]
    omega
  rw [run?_blanks, run?_blanks]
  cases fuel with
  | zero => rfl
  | succ fuel =>
    have hclose : (paused true (m.right e) w tokens (i :: indents)).advance? =
        (paused true (m.right e) w (.blockEnd :: tokens) indents).advance? := by
      simp [advance?_paused (toToken_of_atWord hw _ _ _), unroll_paused, hcol, List.replicate_succ']
    rw [run?, run?, hclose]

theorem run?_label (hr : wordEnds r = true) :
    run? (fuel + 2) (paused true m (label d k r) tokens (d :: indents)) =
      run? fuel (paused false (m.right (d + (k.text.length + 1))) r (.value :: .scalar k.text .plain :: .key :: tokens)
        (d :: indents)) := by
  have hcol : (m.right d).column = d := by rw [Mark.column_right, hm, Nat.zero_add]
  rw [label, run?_blanks, run?_key hr (by simp [hcol]), run?_named hr (by simp [hcol]),
    value?_named_open (by simp [hcol]), Option.bind_some, Mark.right_right]

theorem run?_header :
    ∃ m' : Mark, m'.column = 0 ∧
      run? (fuel + 2) (paused true m (label d k ('\n' :: rest)) tokens (d :: indents)) =
        run? fuel (paused true m' rest (.value :: .scalar k.text .plain :: .key :: tokens) (d :: indents)) :=
  ⟨_, rfl, by rw [run?_label hm rfl, run?_break]⟩

theorem run?_row (hrest : Follows d rest) :
    ∃ m' : Mark, m'.column = 0 ∧
      run? (fuel + 3) (paused true m (label d k (' ' :: (v.text ++ '\n' :: rest))) tokens (d :: indents)) =
        run? fuel (paused true m' rest
          (.scalar v.text .plain :: .value :: .scalar k.text .plain :: .key :: tokens) (d :: indents)) := by
  obtain ⟨e, w, he, rfl, hw⟩ := hrest
  have hcol : d ≤ ((m.right (d + (k.text.length + 1))).right 1).column := by
    rw [Mark.column_right, Mark.column_right]
    omega
  exact ⟨_, rfl, by rw [run?_label hm rfl, run?_blank, run?_value hcol he hw]⟩

end Scanner

end Tierwise.Yaml
