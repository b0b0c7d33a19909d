import Tierwise.Proofs.Yaml.Scan
import Tierwise.Yaml.Table

/-! # Reading a page of words

A page is a table in block style of words and of tables of words one level down. Reading its text gives back its rows:
first the tokens, then the document, then the rows with the aliases put in, of which there are none.
-/

namespace Tierwise.Yaml

/-- A value of the outer table. The inner table has at least one row. -/
inductive Content where
  | word (w : Word)
  | table (first : Key × Word) (more : List (Key × Word))

/-- A row of words at column `d`, and the text after it. -/
def line (d : Nat) (row : Key × Word) (rest : List Char) : List Char :=
  label d row.1 (' ' :: (row.2.text ++ '\n' :: rest))

/-- A row of the outer table, and the text after it. -/
def entryText : Key × Content → List Char → List Char
  | (k, .word w), rest => line 0 (k, w) rest
  | (k, .table first more), rest => label 0 k ('\n' :: (first :: more).foldr (line 2) rest)

def pageText (rows : List (Key × Content)) : List Char := rows.foldr entryText []

/-- The tokens of a row whose value has the tokens `value`. -/
def rowTokens (k : Key) (value : List Token) : List Token := .key :: .scalar k.text .plain :: .value :: value

def Word.tokens (w : Word) : List Token := [.scalar w.text .plain]

def lineTokens (row : Key × Word) : List Token := rowTokens row.1 row.2.tokens

def Content.tokens : Content → List Token
  | word w => w.tokens
  | table first more => .blockStart :: ((first :: more).flatMap lineTokens ++ [.blockEnd])

def entryTokens (row : Key × Content) : List Token := rowTokens row.1 row.2.tokens

/-- How many tokens the scanner reads in a row of the outer table, those apart that it puts in. -/
def steps : Key × Content → Nat
  | (_, .word _) => 3
  | (_, .table first more) => 3 * (first :: more).length + 2

def pageSteps (rows : List (Key × Content)) : Nat := rows.foldr (fun row n => n + steps row) 0

/-! ## Tokens -/

theorem follows_foldr_line {d : Nat} {rest : List Char} (hrest : Follows d rest) (rows : List (Key × Word)) :
    Follows d (rows.foldr (line d) rest) := by
  cases rows with
  | nil => exact hrest
  | cons row rows => exact follows_label d row.1 _

theorem follows_pageText (rows : List (Key × Content)) : Follows 0 (pageText rows) := by
  cases rows with
  | nil => exact follows_nil 0
  | cons row rows =>
    obtain ⟨k, _ | _⟩ := row
    · exact follows_label 0 k _
    · exact follows_label 0 k _

namespace Scanner

variable {m : Mark} (hm : m.column = 0)

include hm

theorem run?_lines {d : Nat} {rest : List Char} (hrest : Follows d rest) (rows : List (Key × Word))
    (tokens : List Token) (indents : List Nat) (fuel : Nat) :
    ∃ m' : Mark, m'.column = 0 ∧
      run? (fuel + 3 * rows.length) (paused true m (rows.foldr (line d) rest) tokens (d :: indents)) =
        run? fuel (paused true m' rest ((rows.flatMap lineTokens).reverse ++ tokens) (d :: indents)) := by
  induction rows generalizing m tokens with
  | nil => exact ⟨m, hm, rfl⟩
  | cons row rows ih =>
    obtain ⟨m₁, hm₁, hrow⟩ := run?_row hm (follows_foldr_line hrest rows)
    obtain ⟨m₂, hm₂, hrows⟩ := ih hm₁ _
    refine ⟨m₂, hm₂, ?_⟩
    rw [List.foldr_cons, line, List.length_cons, Nat.mul_succ, ← Nat.add_assoc, hrow, hrows]
    simp [lineTokens, rowTokens, Word.tokens]

theorem run?_entry {rest : List Char} (hrest : Follows 0 rest) (row : Key × Content) (tokens : List Token)
    (fuel : Nat) :
    ∃ m' : Mark, m'.column = 0 ∧
      run? (fuel + steps row) (paused true m (entryText row rest) tokens [0]) =
        run? fuel (paused true m' rest ((entryTokens row).reverse ++ tokens) [0]) := by
  obtain ⟨k, w | ⟨first, more⟩⟩ := row
  · exact run?_row hm hrest
  · obtain ⟨m₁, hm₁, hheader⟩ := run?_header hm
    obtain ⟨m₂, hm₂, hlines⟩ := run?_lines hm₁ (hrest.mono (Nat.zero_le 2)) (first :: more) _ [0] fuel
    refine ⟨m₂, hm₂, ?_⟩
    rw [steps, ← Nat.add_assoc, entryText, hheader, List.foldr_cons, line, run?_open hm₁ rfl rfl]
    rw [List.foldr_cons, line] at hlines
    rw [hlines, run?_close hm₂ hrest Nat.two_pos]
    simp [entryTokens, rowTokens, Content.tokens]

theorem run?_entries (rows : List (Key × Content)) (tokens : List Token) (fuel : Nat) :
    ∃ m' : Mark, m'.column = 0 ∧
      run? (fuel + pageSteps rows) (paused true m (pageText rows) tokens [0]) =
        run? fuel (paused true m' [] ((rows.flatMap entryTokens).reverse ++ tokens) [0]) := by
  induction rows generalizing m tokens with
  | nil => exact ⟨m, hm, rfl⟩
  | cons row rows ih =>
    obtain ⟨m₁, hm₁, hrow⟩ := run?_entry hm (follows_pageText rows) row tokens (fuel + pageSteps rows)
    obtain ⟨m₂, hm₂, hrows⟩ := ih hm₁ _
    refine ⟨m₂, hm₂, ?_⟩
    rw [pageSteps, List.foldr_cons, ← pageSteps, ← Nat.add_assoc, pageText, List.foldr_cons, ← pageText, hrow, hrows]
    simp

end Scanner

theorem length_line (d : Nat) (row : Key × Word) (rest : List Char) : rest.length + 3 ≤ (line d row rest).length := by
  simp [line, label]
  omega

theorem length_foldr_line (d : Nat) (rows : List (Key × Word)) (rest : List Char) :
    rest.length + 3 * rows.length ≤ (rows.foldr (line d) rest).length := by
  induction rows with
  | nil => simp
  | cons row rows ih =>
    have := length_line d row (rows.foldr (line d) rest)
    rw [List.foldr_cons, List.length_cons]
    omega

theorem length_entryText (row : Key × Content) (rest : List Char) :
    rest.length + steps row ≤ (entryText row rest).length := by
  obtain ⟨k, w | ⟨first, more⟩⟩ := row
  · exact length_line 0 (k, w) rest
  · have := length_foldr_line 2 (first :: more) rest
    simp only [entryText, steps, label, List.length_append, List.length_cons, List.length_replicate] at this ⊢
    omega

theorem pageSteps_le (rows : List (Key × Content)) : pageSteps rows ≤ (pageText rows).length := by
  induction rows with
  | nil => exact Nat.zero_le _
  | cons row rows ih =>
    have := length_entryText row (pageText rows)
    rw [pageSteps, List.foldr_cons, ← pageSteps, pageText, List.foldr_cons, ← pageText]
    omega

/-- The characters of a page. -/
def isPrinted (c : Char) : Bool := isLetter c || [':', ' ', '\n'].contains c

theorem Word.all_isPrinted (w : Word) : w.text.all isPrinted = true := by
  rw [List.all_eq_true]
  intro c hc
  simp [isPrinted, w.letters c hc]

theorem all_isPrinted_label (d : Nat) (k : Key) (r : List Char) :
    (label d k r).all isPrinted = r.all isPrinted := by
  simp +decide [label, k.all_isPrinted, isPrinted]

theorem all_isPrinted_foldr_line (d : Nat) (rows : List (Key × Word)) (rest : List Char) :
    (rows.foldr (line d) rest).all isPrinted = rest.all isPrinted := by
  induction rows with
  | nil => rfl
  | cons row rows ih =>
    simp +decide [line, all_isPrinted_label, row.2.all_isPrinted, ih, isPrinted]

theorem all_isPrinted_pageText (rows : List (Key × Content)) : (pageText rows).all isPrinted = true := by
  induction rows with
  | nil => rfl
  | cons row rows ih =>
    rw [pageText, List.foldr_cons, ← pageText]
    obtain ⟨k, w | ⟨first, more⟩⟩ := row
    · exact (all_isPrinted_foldr_line 0 [(k, w)] (pageText rows)).trans ih
    · rw [entryText, all_isPrinted_label, List.all_cons, all_isPrinted_foldr_line, ih]
      rfl

theorem isAllowed_of_isLetter {c : Char} (hc : isLetter c = true) : isAllowed c = true := by
  have hrange : 0x20 ≤ c.toNat ∧ c.toNat ≤ 0x7e := by
    delta isLetter Char.isAlphanum Char.isAlpha Char.isUpper Char.isLower Char.isDigit at hc
    simp only [Bool.or_eq_true, Bool.and_eq_true, decide_eq_true_eq, beq_iff_eq, UInt32.le_iff_toNat_le, ge_iff_le,
      UInt32.reduceToNat, Char.reduceVal] at hc
    obtain hc | rfl := hc
    · rw [Char.toNat]
      omega
    · decide
  simp [isAllowed, hrange]

theorem isAllowed_of_isPrinted {c : Char} (h : isPrinted c = true) : isAllowed c = true := by
  simp only [isPrinted, Bool.or_eq_true, List.contains_iff_mem, List.mem_cons, List.not_mem_nil, or_false] at h
  obtain h | rfl | rfl | rfl := h
  · exact isAllowed_of_isLetter h
  all_goals decide

theorem unifyBreaks_of_isPrinted {cs : List Char} (h : cs.all isPrinted = true) : unifyBreaks cs = cs := by
  fun_induction unifyBreaks cs with
  | case1 => rfl
  | case2 r ih => simp +decide at h
  | case3 c r _ ih =>
    rw [List.all_cons, Bool.and_eq_true] at h
    have hcr : c ≠ '\r' := by rintro rfl; exact absurd h.1 (by decide)
    have hnel : c ≠ '\u0085' := by rintro rfl; exact absurd h.1 (by decide)
    simp [hcr, hnel, ih h.2]

theorem tokens?_pageText {rows : List (Key × Content)} (h : rows ≠ []) :
    tokens? (pageText rows) = some (.blockStart :: (rows.flatMap entryTokens ++ [.blockEnd])) := by
  have hprinted := all_isPrinted_pageText rows
  have hallowed : (pageText rows).all isAllowed = true := by
    rw [List.all_eq_true] at hprinted ⊢
    exact fun c hc => isAllowed_of_isPrinted (hprinted c hc)
  obtain ⟨spare, hspare⟩ : ∃ spare, (pageText rows).length + 1 = spare + 1 + pageSteps rows :=
    ⟨(pageText rows).length - pageSteps rows, by have := pageSteps_le rows; omega⟩
  have hstart : ({} : Mark).column = 0 := rfl
  have hopen : Scanner.run? (spare + 1 + pageSteps rows) { cursor := ⟨{}, pageText rows⟩ } =
      Scanner.run? (spare + 1 + pageSteps rows) (Scanner.paused true {} (pageText rows) [.blockStart] [0]) := by
    obtain ⟨⟨k, w | ⟨first, more⟩⟩, rest, rfl⟩ := List.exists_cons_of_ne_nil h
    · exact Scanner.run?_open hstart rfl rfl
    · exact Scanner.run?_open hstart rfl rfl
  obtain ⟨m, -, hrun⟩ := Scanner.run?_entries hstart rows [.blockStart] (spare + 1)
  simp only [tokens?, unifyBreaks_of_isPrinted hprinted, hallowed, if_true]
  rw [hspare, hopen, hrun, Scanner.run?_end]
  simp

/-! ## The document -/

def Word.scalar (w : Word) : Scalar := ⟨w.text, .plain, none⟩

def Word.atom (w : Word) : Atom := .scalar none w.scalar

def lineAtoms (row : Key × Word) : Atom × Atom := (row.1.atom, row.2.atom)

def Content.entry : Content → Entry
  | word w => .atom w.atom
  | table first more => .table none ((first :: more).map lineAtoms)

def entryAtoms (row : Key × Content) : Atom × Entry := (row.1.atom, row.2.entry)

theorem atom?_scalar (handles : Handles) (w : Word) (r : List Token) :
    atom? handles (.scalar w.text .plain :: r) = some (w.atom, r) := by
  simp [atom?, properties?, scalar?, Word.atom, Word.scalar]

section Table

variable {α β : Type} {absent : α} {tokens : β → List Token} {value : β → α}

theorem blockRows?_flatMap {node : Reader α} (handles : Handles)
    (hnode : ∀ b r, blockNode? absent node (tokens b ++ r) = some (value b, r))
    (rows : List (Key × β)) (rest : List Token) {fuel : Nat} (hfuel : rows.length < fuel) :
    blockRows? absent (atom? handles) node fuel
        (rows.flatMap (fun row => rowTokens row.1 (tokens row.2)) ++ .blockEnd :: rest) =
      some (rows.map fun row => (row.1.atom, value row.2), rest) := by
  induction rows generalizing fuel with
  | nil =>
    obtain ⟨fuel, rfl⟩ := Nat.exists_eq_succ_of_ne_zero hfuel.ne'
    simp [blockRows?]
  | cons row rows ih =>
    obtain ⟨fuel, rfl⟩ := Nat.exists_eq_succ_of_ne_zero (Nat.ne_zero_of_lt hfuel)
    have hrows := ih (Nat.lt_of_succ_lt_succ hfuel)
    have hkey : ∀ r, blockNode? missing (atom? handles) (.scalar row.1.text .plain :: r) = some (row.1.atom, r) := by
      simp [blockNode?, blockGoesOn, atom?_scalar]
    simp only [List.flatMap_cons, List.append_assoc, rowTokens, List.cons_append] at hrows ⊢
    simp [blockRows?, hkey, blockValue?, hnode, hrows]

theorem length_le_flatMap_rowTokens (tokens : β → List Token) (rows : List (Key × β)) :
    rows.length ≤ (rows.flatMap fun row => rowTokens row.1 (tokens row.2)).length := by
  induction rows with
  | nil => exact Nat.zero_le _
  | cons row rows ih =>
    simp only [List.flatMap_cons, List.length_append, List.length_cons, rowTokens] at ih ⊢
    omega

/-- A table whose values are read back is itself read back. -/
theorem rows?_block {node : Bool → Reader α} (handles : Handles)
    (hnode : ∀ b r, blockNode? absent (node true) (tokens b ++ r) = some (value b, r))
    (rows : List (Key × β)) (rest : List Token) :
    rows? true absent (atom? handles) node
        (.blockStart :: (rows.flatMap (fun row => rowTokens row.1 (tokens row.2)) ++ .blockEnd :: rest)) =
      some (rows.map fun row => (row.1.atom, value row.2), rest) := by
  have hlength := length_le_flatMap_rowTokens tokens rows
  apply blockRows?_flatMap handles hnode
  rw [List.length_append]
  omega

end Table

theorem Word.blockNode?_tokens (handles : Handles) (w : Word) (r : List Token) :
    blockNode? missing (atom? handles) (w.tokens ++ r) = some (w.atom, r) := by
  simp [blockNode?, blockGoesOn, tokens, atom?_scalar]

theorem Content.blockNode?_tokens (handles : Handles) (c : Content) (r : List Token) :
    blockNode? (.atom missing) (outerNode? handles true) (c.tokens ++ r) = some (c.entry, r) := by
  cases c with
  | word w =>
    simp [blockNode?, blockGoesOn, tokens, Word.tokens, outerNode?, properties?, scalar?, entry, Word.atom, Word.scalar]
  | table first more =>
    have hrows : rows? true missing (atom? handles) (fun _ => atom? handles)
        (.blockStart :: ((first :: more).flatMap lineTokens ++ .blockEnd :: r)) =
          some ((first :: more).map lineAtoms, r) :=
      rows?_block handles (Word.blockNode?_tokens handles) (first :: more) r
    have htokens : (table first more).tokens ++ r =
        .blockStart :: ((first :: more).flatMap lineTokens ++ .blockEnd :: r) := by
      simp [tokens]
    have hnode : ∀ ts, blockNode? (.atom missing) (outerNode? handles true) (.blockStart :: ts) =
        (rows? true missing (atom? handles) (fun _ => atom? handles) (.blockStart :: ts)).map
          fun q => (.table none q.1, q.2) := by
      simp [blockNode?, blockGoesOn, outerNode?, properties?]
    rw [htokens, hnode, hrows]
    rfl

theorem document?_pageText {rows : List (Key × Content)} (h : rows ≠ []) :
    document? (pageText rows) = some ⟨none, rows.map entryAtoms⟩ := by
  have hrows : rows? true (.atom missing) (atom? standardHandles) (outerNode? standardHandles)
      (.blockStart :: (rows.flatMap entryTokens ++ [.blockEnd])) =
        some (rows.map entryAtoms, []) :=
    rows?_block standardHandles (Content.blockNode?_tokens standardHandles) rows []
  simp [document?, tokens?_pageText h, opening?, outerTable?, properties?, hrows]

/-! ## The rows -/

def lineItems (row : Key × Word) : Item × Item := (.scalar row.1.scalar, .scalar row.2.scalar)

def Content.items : Content → Item ⊕ List (Item × Item)
  | word w => .inl (.scalar w.scalar)
  | table first more => .inr ((first :: more).map lineItems)

def lineField (row : Key × Word) : List Char × Scalar := (row.1.text, row.2.scalar)

def Content.field : Content → Field
  | word w => .scalar w.scalar
  | table first more => .table ((first :: more).map lineField)

def entryField (row : Key × Content) : List Char × Field := (row.1.text, row.2.field)

theorem Word.item_atom (w : Word) : w.atom.item = pure (.scalar w.scalar) := rfl

theorem openTable_none : openTable none = pure () := rfl

theorem Content.items_entry (c : Content) : c.entry.items = pure c.items := by
  cases c with
  | word w => rfl
  | table first more =>
    have hinner : innerItems ((first :: more).map lineAtoms) = pure ((first :: more).map lineItems) := by
      rw [innerItems, List.mapM_map]
      exact List.mapM_pure
    rw [entry, Entry.items, hinner]
    rfl

theorem items_document (rows : List (Key × Content)) :
    Document.items ⟨none, rows.map entryAtoms⟩ = pure (rows.map fun row => (.scalar row.1.scalar, row.2.items)) := by
  simp [Document.items, openTable_none, entryAtoms, Word.item_atom, Content.items_entry, Function.comp_def]

theorem Content.field?_items (c : Content) (a : Anchors) : field? a c.items = some c.field := by
  cases c with
  | word w => rfl
  | table first more =>
    have hinner : ((first :: more).map lineItems).mapM (innerRow? a) = some ((first :: more).map lineField) := by
      rw [List.mapM_map]
      exact List.mapM_pure
    rw [items, field?, hinner]
    rfl

theorem rows?_document (rows : List (Key × Content)) :
    Document.rows? ⟨none, rows.map entryAtoms⟩ = some (rows.map entryField) := by
  rw [Document.rows?, items_document]
  change List.mapM _ (rows.map _) = _
  rw [List.mapM_map]
  apply Eq.trans _ List.mapM_pure
  congr 1
  funext row
  simp [Item.scalar?, Content.field?_items, Word.scalar, entryField]

/-- A page is read as its rows. -/
theorem rows?_pageText {rows : List (Key × Content)} (h : rows ≠ []) :
    (document? (pageText rows)).bind Document.rows? = some (rows.map entryField) := by
  rw [document?_pageText h, Option.bind_some, rows?_document]

/-! ## Words that are numbers -/

theorem digit?_ten {c : Char} (h : c.isDigit = true) : digit? 10 c = some (c.toNat - '0'.toNat) := by
  have hrange : 48 ≤ c.toNat ∧ c.toNat ≤ 57 := by
    simpa [Char.isDigit, UInt32.le_iff_toNat_le] using h
  simp [digit?, hrange]
  omega

theorem digits?_ten {cs : List Char} (h : ∀ c ∈ cs, c.isDigit = true) (acc : Nat) :
    digits? 10 acc cs = some (Nat.ofDigitChars 10 cs acc) := by
  induction cs generalizing acc with
  | nil => simp [digits?]
  | cons c cs ih =>
    have hcs : ∀ c ∈ cs, c.isDigit = true := fun c hc => h c (List.mem_cons_of_mem _ hc)
    rw [digits?, digit?_ten (h c List.mem_cons_self), Option.bind_some, ih hcs, Nat.ofDigitChars_cons, Nat.mul_comm]

theorem head?_toDigits_ne {n : Nat} (h : 0 < n) : (Nat.toDigits 10 n).head? ≠ some '0' := by
  induction n using Nat.strongRecOn with
  | ind n ih =>
    by_cases hn : n < 10
    · simp only [Nat.toDigits_of_lt_base hn, List.head?_cons, ne_eq, Option.some.injEq, Nat.digitChar_eq_zero]
      omega
    · have hlead := ih (n / 10) (by omega) (by omega)
      have hne : Nat.toDigits 10 (n / 10) ≠ [] := Nat.toDigits_ne_nil
      obtain ⟨c, cs, hcs⟩ := List.exists_cons_of_ne_nil hne
      rw [Nat.toDigits_of_base_le (by decide) (by omega), hcs]
      rwa [hcs] at hlead

theorem zeroPadded_toDigits (n : Nat) : zeroPadded (Nat.toDigits 10 n) = false := by
  obtain rfl | hn := Nat.eq_zero_or_pos n
  · decide
  · have hhead := head?_toDigits_ne hn
    unfold zeroPadded
    split
    · rename_i r hcs
      simp [hcs] at hhead
    · rfl

/-- Neither a sign nor the letter of another base is a digit. -/
theorem unsigned?_of_isDigit {cs : List Char} (h : ∀ c ∈ cs, c.isDigit = true) :
    unsigned? cs = if zeroPadded cs then none else number? 10 cs := by
  have hsign : ∀ r, cs ≠ '+' :: r := by
    rintro r rfl
    exact absurd (h '+' List.mem_cons_self) (by decide)
  have hbase : ∀ c r, c.isDigit = false → cs ≠ '0' :: c :: r := by
    rintro c r hc rfl
    simp [hc] at h
  unfold unsigned?
  split
  · exact absurd rfl (hsign _)
  · dsimp only
    split
    · exact absurd rfl (hbase 'x' _ (by decide))
    · exact absurd rfl (hbase 'o' _ (by decide))
    · exact absurd rfl (hbase 'b' _ (by decide))
    · rfl

theorem unsigned?_toDigits (n : Nat) : unsigned? (Nat.toDigits 10 n) = some n := by
  have hdigits : ∀ c ∈ Nat.toDigits 10 n, c.isDigit = true :=
    fun c hc => Nat.isDigit_of_mem_toDigits (by decide) (by decide) hc
  rw [unsigned?_of_isDigit hdigits, zeroPadded_toDigits]
  simp [number?, Nat.toDigits_ne_nil, digits?_ten hdigits]

def Word.number (n : Nat) : Word where
  text := Nat.toDigits 10 n
  ne_nil := Nat.toDigits_ne_nil
  letters := by
    intro c hc
    simp [isLetter, Char.isAlphanum, Nat.isDigit_of_mem_toDigits (by decide) (by decide) hc]

theorem Word.below?_number {n bound : Nat} (h : n < bound) : (number n).scalar.below? bound = some n := by
  have hstands : (number n).scalar.standsFor intTag = true := rfl
  have hvalue : unsigned? (number n).scalar.text = some n := unsigned?_toDigits n
  simp [Scalar.below?, hstands, hvalue, h]

theorem Word.isNull?_number (n : Nat) : (number n).scalar.isNull? = some false := by
  have hdigits : ∀ c ∈ (number n).text, c.isDigit = true :=
    fun c hc => Nat.isDigit_of_mem_toDigits (by decide) (by decide) hc
  have hnames : ["~", "null", "Null", "NULL"].any (·.toList.all Char.isDigit) = false := by decide
  have hword : (number n).scalar.isNullWord = false := by
    rw [Scalar.isNullWord, List.any_eq_false]
    rw [List.any_eq_false] at hnames
    intro name hname htext
    apply hnames name hname
    rw [beq_iff_eq.1 htext, List.all_eq_true]
    exact hdigits
  have hne : (number n).scalar.text.isEmpty = false := by simp [scalar, (number n).ne_nil]
  change some ((number n).scalar.text.isEmpty || (number n).scalar.isNullWord) = some false
  rw [hne, hword]
  rfl

end Tierwise.Yaml
