import ProjectVault.Js.Units
import ProjectVault.Js.Regex
import Mathlib.Data.List.DropRight

/-!
The reader of dotenv text behind the credential import (`packages/shared/src/utils/env-parser.ts`),
and the texts it is for: assignments, comments and blank lines, with blanks around every part.
-/

namespace EnvParser

open Js

variable {c : UInt16} {u v w : Units}

/-! ### The parser -/

/-- The units `String.prototype.trim` strips. -/
def isSpace (c : UInt16) : Bool :=
  let n := c.toNat
  (9 ≤ n && n ≤ 13) || n == 32 || n == 0xA0 || n == 0x1680 || (0x2000 ≤ n && n ≤ 0x200A) ||
    n == 0x2028 || n == 0x2029 || n == 0x202F || n == 0x205F || n == 0x3000 || n == 0xFEFF

/-- `String.prototype.trimEnd`. -/
def trimEnd (w : Units) : Units := w.rdropWhile isSpace

/-- `String.prototype.trim`. -/
def trim (w : Units) : Units := trimEnd (w.dropWhile isSpace)

def lf : UInt16 := 10
def cr : UInt16 := 13
def space : UInt16 := 32
def hash : UInt16 := 35
def equalsSign : UInt16 := 61

structure ParsedEnvEntry where
  name : Units
  value : Units
deriving DecidableEq

inductive Reason where
  | noEqualsSign | emptyValue | invalidKey | duplicateKey

structure ParseWarning where
  line : ℕ
  reason : Reason
  raw : Units

structure EnvParseResult where
  entries : List ParsedEnvEntry
  warnings : List ParseWarning

/-- `[A-Za-z_]`. -/
def isKeyStart (c : UInt16) : Bool := (65 ≤ c && c ≤ 90) || (97 ≤ c && c ≤ 122) || c == 95

/-- `\w`. -/
def isWord (c : UInt16) : Bool := isKeyStart c || (48 ≤ c && c ≤ 57)

/-- `KEY_PATTERN`, between its anchors. -/
def keyPattern : Regex UInt16 := .seq (.unit isKeyStart) (.star (.unit isWord))

/-- `text.indexOf(' #')`. -/
def indexOfComment : Units → Option ℕ
  | c :: d :: rest =>
    if c = space ∧ d = hash then some 0 else (indexOfComment (d :: rest)).map (· + 1)
  | _ => none

/-- The text up to a comment. -/
def cutComment (w : Units) : Units :=
  match indexOfComment w with
  | none => w
  | some commentIdx => w.take commentIdx

/-- The quotes. -/
inductive Quote where
  | double | single

/-- The unit of a quote. -/
def Quote.unit : Quote → UInt16
  | double => 34
  | single => 39

/-- `w.startsWith(q) && w.endsWith(q)`. -/
def wrapped (q : Quote) (w : Units) : Bool := w.head? == some q.unit && w.getLast? == some q.unit

/-- `decodeEnvValue`. -/
def decodeEnvValue (rawValue : Units) : Units :=
  if wrapped .double rawValue || wrapped .single rawValue then (rawValue.drop 1).dropLast
  else trim (cutComment rawValue)

/-- `'export '`. -/
def exportPrefix : Units := units "export "

/-- The warning and the entry of a line. -/
structure ParsedLine where
  entry : Option ParsedEnvEntry := none
  warning : Option ParseWarning := none

/-- `parseEnvLine`. -/
def parseEnvLine (lineNum : ℕ) (raw : Units) : ParsedLine :=
  let trimmed := trim raw
  if trimmed = [] ∨ trimmed.head? = some hash then {}
  else
    let stripped :=
      if startsWithAt trimmed exportPrefix 0 then trim (trimmed.drop 7) else trimmed
    match indexOf stripped equalsSign 0 with
    | none => { warning := some ⟨lineNum, .noEqualsSign, raw⟩ }
    | some eqIdx =>
      let name := trim (slice stripped 0 eqIdx)
      if (keyPattern.exec name).isNone then { warning := some ⟨lineNum, .invalidKey, raw⟩ }
      else
        let value := decodeEnvValue (stripped.drop (eqIdx + 1))
        { entry := some ⟨name, value⟩
          warning := if value = [] then some ⟨lineNum, .emptyValue, raw⟩ else none }

/-- `content.split(/\r?\n/)`. -/
def splitLines : Units → List Units
  | [] => [[]]
  | c :: rest =>
    if c = lf then [] :: splitLines rest
    else if c = cr ∧ rest.head? = some lf then splitLines rest
    else
      match splitLines rest with
      | line :: lines => (c :: line) :: lines
      | [] => [[c]]

/-- `entryMap.get(name)`, of the entry its value. -/
def lookup (entries : List ParsedEnvEntry) (name : Units) : Option Units :=
  (entries.find? fun e => e.name = name).map ParsedEnvEntry.value

/-- `entryMap.set(entry.name, entry)`: a name keeps its place. -/
def setEntry : List ParsedEnvEntry → ParsedEnvEntry → List ParsedEnvEntry
  | [], entry => [entry]
  | e :: entries, entry =>
    if e.name = entry.name then entry :: entries else e :: setEntry entries entry

/-- One round of the loop of `parseEnvFile`. -/
def addLine (result : EnvParseResult) (line : ℕ) (raw : Units) : EnvParseResult :=
  let parsed := parseEnvLine line raw
  let warnings := result.warnings ++ parsed.warning.toList
  match parsed.entry with
  | none => { result with warnings := warnings }
  | some entry =>
    { entries := setEntry result.entries entry
      warnings :=
        if (lookup result.entries entry.name).isSome then
          warnings ++ [⟨line, .duplicateKey, raw⟩]
        else warnings }

/-- The rounds from line `line` on. -/
def addLines (result : EnvParseResult) (line : ℕ) : List Units → EnvParseResult
  | [] => result
  | raw :: raws => addLines (addLine result line raw) (line + 1) raws

/-- `parseEnvFile`. -/
def parseEnvFile (content : Units) : EnvParseResult := addLines ⟨[], []⟩ 1 (splitLines content)

/-! ### Dotenv texts -/

/-- Units of one line. -/
def InLine (w : Units) : Prop := ∀ c ∈ w, c ≠ lf ∧ c ≠ cr

/-- White space inside a line, perhaps none. -/
structure Blanks where
  units : Units
  space : ∀ c ∈ units, isSpace c = true
  inLine : InLine units

/-- Nothing to trim. -/
def Trimmed (w : Units) : Prop :=
  (∀ c ∈ w.head?, isSpace c = false) ∧ ∀ c ∈ w.getLast?, isSpace c = false

/-- No `#` after white space, where a comment would start. -/
def CommentFree (w : Units) : Prop := w.IsChain fun c d => d = hash → isSpace c = false

/-- The value of an assignment as it is written. -/
inductive Written where
  | plain (w : Units) (trimmed : Trimmed w) (commentFree : CommentFree w) (inLine : InLine w)
      (unquoted : ∀ q : Quote, w.head? ≠ some q.unit)
  | quoted (q : Quote) (w : Units) (notMem : q.unit ∉ w) (inLine : InLine w)

/-- What the value stands for: quotes are removed, everything between them is kept. -/
def Written.content : Written → Units
  | plain w _ _ _ _ => w
  | quoted _ w _ _ => w

/-- The value in its line. -/
def Written.text : Written → Units
  | plain w _ _ _ _ => w
  | quoted q w _ _ => q.unit :: w ++ [q.unit]

/-- The quote that delimits the value. -/
def Written.quote? : Written → Option Quote
  | plain _ _ _ _ _ => none
  | quoted q _ _ _ => some q

/-- A comment behind a value: blanks, at least one, and what follows the `#`. -/
structure Comment where
  before : Blanks
  nonempty : before.units ≠ []
  body : Units
  inLine : InLine body

/-- The text of a comment behind a value, and that of none. -/
def commentText : Option Comment → Units
  | none => []
  | some comment => comment.before.units ++ hash :: comment.body

/-- A line `[export ]KEY=value`, with blanks around its parts. -/
structure Assignment where
  lead : Blanks
  exported : Option Blanks
  key : Units
  isKey : ∃ c rest, key = c :: rest ∧ isKeyStart c = true ∧ ∀ d ∈ rest, isWord d = true
  beforeEquals : Blanks
  afterEquals : Blanks
  written : Written
  comment : Option Comment
  trail : Blanks
  /-- A line that starts with `export ` has that prefix. -/
  plainKey : exported = none → ¬ exportPrefix <+: key ++ beforeEquals.units
  /-- A `#` behind blanks starts a comment. -/
  startsNoComment : written.quote? = none → written.text.head? = some hash →
    afterEquals.units = []

namespace Assignment

/-- `export ` and more blanks. -/
def prefixText (a : Assignment) : Units :=
  match a.exported with
  | none => []
  | some blanks => exportPrefix ++ blanks.units

/-- What stands before the equals sign, from the key on. -/
def keyText (a : Assignment) : Units := a.key ++ a.beforeEquals.units

/-- What follows the equals sign. -/
def valueText (a : Assignment) : Units :=
  a.afterEquals.units ++ (a.written.text ++ (commentText a.comment ++ a.trail.units))

/-- The line. -/
def text (a : Assignment) : Units :=
  a.lead.units ++ (a.prefixText ++ (a.keyText ++ equalsSign :: a.valueText))

/-- **The assignments that are decoded**: a quoted value directly behind the equals sign and
without a comment, a plain one without a comment or with a space right before its `#`. -/
def Clean (a : Assignment) : Prop :=
  match a.written with
  | .plain _ _ _ _ _ => ∀ comment ∈ a.comment, comment.before.units.getLast? = some space
  | .quoted _ _ _ _ => a.afterEquals.units = [] ∧ a.comment = none

end Assignment

/-- A line of a text. -/
inductive Line where
  | blank (blanks : Blanks)
  | comment (lead : Blanks) (body : Units) (inLine : InLine body)
  | assignment (a : Assignment)

def Line.text : Line → Units
  | blank blanks => blanks.units
  | comment lead body _ => lead.units ++ hash :: body
  | assignment a => a.text

def Line.assignment? : Line → Option Assignment
  | assignment a => some a
  | _ => none

/-- `\r\n` and `\n`. -/
inductive LineEnd where
  | crlf | lf

def LineEnd.text : LineEnd → Units
  | crlf => [EnvParser.cr, EnvParser.lf]
  | lf => [EnvParser.lf]

/-- A text: its first line, and the others with what separates them from the line before. -/
structure EnvText where
  first : Line
  others : List (LineEnd × Line)

namespace EnvText

def lines (t : EnvText) : List Line := t.first :: t.others.map Prod.snd

def text (t : EnvText) : Units :=
  t.first.text ++ t.others.flatMap fun l => l.1.text ++ l.2.text

def assignments (t : EnvText) : List Assignment := t.lines.filterMap Line.assignment?

/-- The last assignment of a key. -/
def last (t : EnvText) (key : Units) : Option Assignment :=
  (t.assignments.filter fun a => a.key = key).getLast?

end EnvText

/-! ### Trimming -/

lemma Blanks.notMem (b : Blanks) (h : isSpace c = false) : c ∉ b.units :=
  fun hmem => by simp [b.space c hmem] at h

lemma isSpace_hash : isSpace hash = false := by decide

lemma isSpace_equalsSign : isSpace equalsSign = false := by decide

lemma isSpace_quote (q : Quote) : isSpace q.unit = false := by cases q <;> decide

lemma isSpace_of_isWord (h : isWord c = true) : isSpace c = false := by
  simp only [isWord, isKeyStart, isSpace, Bool.or_eq_true, Bool.and_eq_true, decide_eq_true_eq,
    beq_iff_eq, UInt16.le_iff_toNat_le, ← UInt16.toNat_inj] at h ⊢
  simp at h ⊢
  omega

/-- White space at the end goes. -/
lemma trimEnd_append (hv : ∀ c ∈ v, isSpace c = true) : trimEnd (w ++ v) = trimEnd w := by
  rw [trimEnd, List.rdropWhile, List.reverse_append,
    List.dropWhile_append_of_pos fun c hc => hv c (List.mem_reverse.1 hc)]
  rfl

/-- Trimming the end stops at what is no white space. -/
lemma trimEnd_append_cons (hc : isSpace c = false) :
    trimEnd (w ++ c :: v) = w ++ c :: trimEnd v := by
  rw [trimEnd, List.rdropWhile, List.reverse_append, List.reverse_cons, List.append_assoc,
    List.dropWhile_append]
  split_ifs with hnil
  · have hv : trimEnd v = [] := by simpa [trimEnd, List.rdropWhile] using hnil
    simp [hc, hv]
  · simp [trimEnd, List.rdropWhile]

/-- White space at the start goes. -/
lemma trim_append (hu : ∀ c ∈ u, isSpace c = true) : trim (u ++ w) = trim w := by
  rw [trim, trim, List.dropWhile_append_of_pos hu]

lemma trim_cons (hc : isSpace c = false) : trim (c :: w) = c :: trimEnd w := by
  rw [trim, List.dropWhile_cons_of_neg (by simp [hc])]
  exact trimEnd_append_cons (w := []) hc

/-- White space behind what needs no trimming goes. -/
lemma Trimmed.trim_append (h : Trimmed w) (hv : ∀ c ∈ v, isSpace c = true) :
    trim (w ++ v) = w := by
  cases w with
  | nil =>
    rw [List.nil_append, ← List.append_nil v, EnvParser.trim_append hv]
    rfl
  | cons c w =>
    have hend : trimEnd (c :: w) = c :: w := by
      refine List.rdropWhile_eq_self_iff.2 fun hne => ?_
      simp [h.2 _ (List.getLast?_eq_getLast_of_ne_nil hne)]
    have hc : isSpace c = false := h.1 c rfl
    rw [List.cons_append, trim_cons hc, trimEnd_append hv]
    exact (trimEnd_append_cons (w := []) hc).symm.trans hend

/-- Trimming takes white space only. -/
lemma count_trim (hc : isSpace c = false) (w : Units) : (trim w).count c = w.count c := by
  have hdrop : ∀ v : Units, (v.dropWhile isSpace).count c = v.count c := by
    intro v
    induction v with
    | nil => rfl
    | cons d v ih =>
      rw [List.dropWhile_cons]
      split_ifs with hd
      · have hne : d ≠ c := fun heq => by simp [heq, hc] at hd
        rw [ih, List.count_cons_of_ne hne]
      · rfl
  rw [trim, trimEnd, List.rdropWhile, List.count_reverse, hdrop, List.count_reverse, hdrop]

/-! ### Cutting the comment -/

/-- No space before a `#`. -/
def NoPair (w : Units) : Prop := w.IsChain fun c d => ¬(c = space ∧ d = hash)

lemma CommentFree.noPair (h : CommentFree w) : NoPair w :=
  h.imp fun _ _ hcd ⟨hc, hd⟩ => by
    rw [hc] at hcd
    exact absurd (hcd hd) (by decide)

lemma Blanks.noPair (b : Blanks) : NoPair b.units :=
  (List.pairwise_of_forall_mem_list fun _ _ _ hd ⟨_, heq⟩ =>
    b.notMem isSpace_hash (heq ▸ hd)).isChain

lemma cutComment_cons : cutComment (c :: w) =
    if c = space ∧ w.head? = some hash then [] else c :: cutComment w := by
  cases w with
  | nil => simp [cutComment, indexOfComment]
  | cons d w =>
    simp only [cutComment, indexOfComment, List.head?_cons, Option.some.injEq]
    split_ifs with hpair
    · rfl
    · cases indexOfComment (d :: w) <;> rfl

/-- What stands before the first space that a `#` follows stays. -/
lemma cutComment_append (hu : NoPair u) (hlast : u.getLast? = some space → v.head? ≠ some hash) :
    cutComment (u ++ v) = u ++ cutComment v := by
  induction u with
  | nil => rfl
  | cons c u ih =>
    have hnext : ¬(c = space ∧ (u ++ v).head? = some hash) := by
      rintro ⟨rfl, hhead⟩
      cases u with
      | nil => exact hlast rfl hhead
      | cons d u =>
        exact (List.isChain_cons_cons.1 hu).1 ⟨rfl, Option.some.inj hhead⟩
    rw [List.cons_append, cutComment_cons, if_neg hnext, ih hu.tail fun h => hlast ?_]
    · rfl
    · rw [List.getLast?_cons, h]
      rfl

/-! ### Decoding a value -/

/-- A value that does not start with a quote is cut and trimmed. -/
lemma decodeEnvValue_of_head (h : ∀ q : Quote, w.head? ≠ some q.unit) :
    decodeEnvValue w = trim (cutComment w) := by
  rw [decodeEnvValue, wrapped, wrapped]
  simp [h]

lemma Blanks.head_ne_quote (b : Blanks) (h : b.units = [] → ∀ q : Quote, w.head? ≠ some q.unit)
    (q : Quote) : (b.units ++ w).head? ≠ some q.unit := by
  rcases hb : b.units with _ | ⟨c, rest⟩
  · exact h hb q
  · intro hc
    have hspace := b.space c (by simp [hb])
    rw [Option.some.inj hc, isSpace_quote] at hspace
    cases hspace

/-- **Quoted values**: decoded directly behind the equals sign and without a comment; otherwise a
quote stays. -/
lemma decode_quoted_iff (b : Blanks) {q : Quote} (hmem : q.unit ∉ w) (comment : Option Comment) :
    decodeEnvValue (b.units ++ (q.unit :: w ++ [q.unit] ++ commentText comment)) = w ↔
      b.units = [] ∧ comment = none := by
  constructor
  · intro h
    by_contra hclean
    refine hmem ((congrArg (q.unit ∈ ·) h).mp ?_)
    have hcut : q.unit ∈
        trim (cutComment (b.units ++ (q.unit :: w ++ [q.unit] ++ commentText comment))) := by
      have hhash : q.unit ≠ hash := by cases q <;> decide
      have hspace : q.unit ≠ space := by cases q <;> decide
      rw [cutComment_append b.noPair ?_, List.cons_append, List.cons_append, cutComment_cons,
        if_neg fun hp => hspace hp.1]
      · refine List.count_pos_iff.1 ?_
        rw [count_trim (isSpace_quote q)]
        simp
      · exact fun _ heq => hhash (Option.some.inj heq)
    by_cases hnil : b.units = []
    · rw [decodeEnvValue]
      split_ifs
      · cases comment with
        | none => exact absurd ⟨hnil, rfl⟩ hclean
        | some comment => simp [hnil, commentText, List.dropLast_cons_of_ne_nil]
      · exact hcut
    · rw [decodeEnvValue_of_head (b.head_ne_quote (absurd · hnil))]
      exact hcut
  · rintro ⟨hnil, rfl⟩
    have hwrapped : wrapped q (q.unit :: w ++ [q.unit]) = true := by
      rw [wrapped, List.getLast?_concat]
      simp
    rw [hnil, commentText, List.append_nil, List.nil_append, decodeEnvValue, if_pos]
    · simp
    · cases q <;> simp only [hwrapped, Bool.or_true, Bool.true_or]

/-- **Plain values**: decoded unless white space other than a space stands before the `#` of a
comment; then the comment stays. -/
lemma decode_plain_iff (b : Blanks) (htrim : Trimmed w) (hfree : CommentFree w)
    (hquote : ∀ q : Quote, w.head? ≠ some q.unit) (hstart : w.head? = some hash → b.units = [])
    (comment : Option Comment) :
    decodeEnvValue (b.units ++ (w ++ commentText comment)) = w ↔
      ∀ comment' ∈ comment, comment'.before.units.getLast? = some space := by
  have hpair : NoPair (b.units ++ w) := by
    refine List.isChain_append.2 ⟨b.noPair, hfree.noPair, fun c hc d hd ⟨_, heq⟩ => ?_⟩
    rw [hstart (heq ▸ hd)] at hc
    cases hc
  have hhead := b.head_ne_quote (w := w ++ commentText comment) fun _ q => by
    cases w with
    | cons c w => exact hquote q
    | nil =>
      cases comment with
      | none => exact hquote q
      | some comment =>
        rw [List.nil_append, commentText]
        exact comment.before.head_ne_quote (absurd · comment.nonempty) q
  rw [decodeEnvValue_of_head hhead, ← List.append_assoc]
  cases comment with
  | none =>
    refine iff_of_true ?_ (by simp)
    rw [cutComment_append hpair (by simp [commentText]), List.append_assoc, trim_append b.space]
    exact htrim.trim_append (by simp [cutComment, indexOfComment, commentText])
  | some comment =>
    have hbefore : NoPair (b.units ++ w ++ comment.before.units) :=
      List.isChain_append.2 ⟨hpair, comment.before.noPair, fun _ _ _ hd ⟨_, heq⟩ =>
        comment.before.notMem isSpace_hash (List.mem_of_mem_head? (heq ▸ hd))⟩
    simp only [Option.mem_def, Option.some.injEq, forall_eq', commentText]
    by_cases hspace : comment.before.units.getLast? = some space
    · refine iff_of_true ?_ hspace
      obtain ⟨before, heq⟩ := List.getLast?_eq_some_iff.1 hspace
      have hblank : ∀ c ∈ before, isSpace c = true := fun c hc =>
        comment.before.space c (heq ▸ List.mem_append_left _ hc)
      rw [heq, ← List.append_assoc] at hbefore
      rw [heq, List.append_assoc before, ← List.append_assoc, List.singleton_append,
        cutComment_append hbefore.left_of_append ?_, cutComment_cons, if_pos ⟨rfl, rfl⟩,
        List.append_nil, List.append_assoc, trim_append b.space, htrim.trim_append hblank]
      exact fun _ h => absurd (Option.some.inj h) (by decide)
    · refine iff_of_false (fun h => ?_) hspace
      have hlast : (b.units ++ w ++ comment.before.units).getLast? ≠ some space := by
        rwa [List.getLast?_append_of_ne_nil _ comment.nonempty]
      have hcount := congrArg (List.count hash) h
      rw [← List.append_assoc, cutComment_append hbefore fun hl => absurd hl hlast,
        cutComment_cons, if_neg fun hp => absurd hp.1 (by decide), count_trim isSpace_hash]
        at hcount
      simp only [List.count_append, List.count_cons_self] at hcount
      omega

/-- The raw value `parseEnvLine` decodes. -/
def Assignment.rawValue (a : Assignment) : Units := trimEnd a.valueText

/-- Of what follows the equals sign, a comment is trimmed at its end, and an empty value takes the
blanks before it with it. -/
lemma Assignment.exists_rawValue (a : Assignment) : ∃ (b : Blanks) (comment : Option Comment),
    a.rawValue = b.units ++ (a.written.text ++ commentText comment) ∧
      (a.written.text ≠ [] → b.units = a.afterEquals.units) ∧
        comment.map Comment.before = a.comment.map Comment.before := by
  rw [rawValue, valueText, ← List.append_assoc, ← List.append_assoc, trimEnd_append a.trail.space]
  cases a.comment with
  | some comment =>
    refine ⟨a.afterEquals, some { comment with
      body := trimEnd comment.body
      inLine := fun c hc => comment.inLine c ((List.rdropWhile_prefix _ _).subset hc) }, ?_,
      fun _ => rfl, rfl⟩
    rw [commentText, ← List.append_assoc, trimEnd_append_cons isSpace_hash]
    simp [commentText]
  | none =>
    have hlast : ∀ c ∈ a.written.text.getLast?, isSpace c = false := by
      cases a.written with
      | plain w htrim => exact htrim.2
      | quoted q w =>
        rw [Written.text, List.getLast?_concat]
        rintro _ ⟨⟩
        exact isSpace_quote q
    rw [commentText, List.append_nil]
    rcases List.eq_nil_or_concat' a.written.text with hnil | ⟨v, c, hv⟩
    · refine ⟨⟨[], nofun, nofun⟩, none, ?_, absurd hnil, rfl⟩
      rw [hnil, List.append_nil, ← List.nil_append a.afterEquals.units,
        trimEnd_append a.afterEquals.space]
      rfl
    · refine ⟨a.afterEquals, none, ?_, fun _ => rfl, rfl⟩
      rw [hv] at hlast ⊢
      rw [← List.append_assoc, trimEnd_append_cons (hlast c (by simp))]
      simp [trimEnd, commentText]

/-- **An assignment is decoded exactly if it is clean.** -/
lemma Assignment.decodeEnvValue_rawValue_iff (a : Assignment) :
    decodeEnvValue a.rawValue = a.written.content ↔ a.Clean := by
  obtain ⟨b, comment, hraw, hb, hcomment⟩ := a.exists_rawValue
  have hstart := a.startsNoComment
  rw [hraw, Clean]
  cases hw : a.written with
  | plain w htrim hfree hline hquote =>
    rw [hw] at hb hstart
    refine (decode_plain_iff b htrim hfree hquote (fun h => ?_) comment).trans ?_
    · have hne : w ≠ [] := by
        rintro rfl
        cases h
      rw [hb hne]
      exact hstart rfl h
    · simp only [← Option.forall_mem_map (f := Comment.before)
        (p := fun b => b.units.getLast? = some space), hcomment]
  | quoted q w hmem hline =>
    rw [hw] at hb
    refine (decode_quoted_iff b hmem comment).trans ?_
    rw [hb (by simp [Written.text]), ← Option.map_eq_none_iff (f := Comment.before), hcomment,
      Option.map_eq_none_iff]

/-! ### Parsing a line -/

lemma plain_keyPattern : Plain keyPattern fun w =>
    ∃ c rest, w = c :: rest ∧ isKeyStart c = true ∧ ∀ d ∈ rest, isWord d = true := by
  refine (plain_unit.seq plain_star_unit).congr fun w => ⟨?_, ?_⟩
  · rintro ⟨u, v, rfl, ⟨c, hc, rfl⟩, hv⟩
    exact ⟨c, v, rfl, hc, hv⟩
  · rintro ⟨c, v, rfl, hc, hv⟩
    exact ⟨[c], v, rfl, ⟨c, hc, rfl⟩, hv⟩

namespace Assignment

variable (a : Assignment)

lemma isWord_of_mem_key : ∀ c ∈ a.key, isWord c = true := by
  obtain ⟨c, rest, hkey, hc, hrest⟩ := a.isKey
  rw [hkey]
  exact List.forall_mem_cons.2 ⟨by simp [isWord, hc], hrest⟩

/-- A key has no `#`, no equals sign and no line break. -/
lemma notMem_key (h : isWord c = false) : c ∉ a.key := fun hmem => by
  simp [a.isWord_of_mem_key c hmem] at h

lemma trim_keyText : trim a.keyText = a.key :=
  Trimmed.trim_append
    ⟨fun c hc => isSpace_of_isWord (a.isWord_of_mem_key c (List.mem_of_mem_head? hc)),
      fun c hc => isSpace_of_isWord (a.isWord_of_mem_key c (List.mem_of_mem_getLast? hc))⟩
    a.beforeEquals.space

/-- What stands from the key to the end of the line, trimmed. -/
def keyed : Units := a.keyText ++ equalsSign :: a.rawValue

/-- The key starts a line that is trimmed. -/
lemma trim_keyed : trim a.keyed = a.keyed := by
  obtain ⟨c, rest, hkey, hc, -⟩ := a.isKey
  have hspace : isSpace c = false := isSpace_of_isWord (by simp [isWord, hc])
  have hidem : trimEnd a.rawValue = a.rawValue := List.rdropWhile_idempotent _ _
  rw [keyed, keyText, hkey, List.cons_append, List.cons_append, trim_cons hspace,
    trimEnd_append_cons isSpace_equalsSign, hidem]

/-- A line starts with a word character. -/
lemma exists_head : ∃ c rest, a.prefixText ++ a.keyText = c :: rest ∧ isWord c = true := by
  unfold prefixText
  cases a.exported with
  | none =>
    obtain ⟨c, rest, hkey, hc, -⟩ := a.isKey
    exact ⟨c, rest ++ a.beforeEquals.units, by simp [keyText, hkey], by simp [isWord, hc]⟩
  | some blanks => exact ⟨101, units "xport " ++ (blanks.units ++ a.keyText), by
      simp [exportPrefix, Js.units], by decide⟩

/-- The trimmed line. -/
lemma trim_text : trim a.text = a.prefixText ++ a.keyed := by
  obtain ⟨c, rest, heq, hc⟩ := a.exists_head
  rw [text, trim_append a.lead.space, keyed, ← List.append_assoc, ← List.append_assoc, heq,
    List.cons_append, trim_cons (isSpace_of_isWord hc), trimEnd_append_cons isSpace_equalsSign]
  rfl

/-- Without the prefix, the line does not start with `export `. -/
lemma startsWith_keyed (hexp : a.exported = none) : ¬ exportPrefix <+: a.keyed := by
  intro hexport
  have hkeyed : a.keyText ++ [equalsSign] <+: a.keyed := ⟨a.rawValue, by simp [keyed]⟩
  rcases List.prefix_or_prefix_of_prefix hexport hkeyed with h | h
  · rcases List.prefix_concat_iff.1 h with heq | h
    · exact absurd (heq ▸ List.mem_concat_self : equalsSign ∈ exportPrefix) (by decide)
    · exact a.plainKey hexp h
  · exact absurd (h.subset List.mem_concat_self) (by decide)

/-- The line after its prefix. -/
lemma stripped_eq : (if startsWithAt (trim a.text) exportPrefix 0 then trim ((trim a.text).drop 7)
    else trim a.text) = a.keyed := by
  simp only [a.trim_text, startsWithAt, List.drop_zero, List.isPrefixOf_iff_prefix, prefixText]
  cases hexp : a.exported with
  | none => exact if_neg (a.startsWith_keyed hexp)
  | some blanks =>
    rw [List.append_assoc, if_pos (List.prefix_append _ _), List.drop_left' (by decide),
      trim_append blanks.space, a.trim_keyed]

/-- **The entry of an assignment.** -/
lemma parseEnvLine_entry (n : ℕ) :
    (parseEnvLine n a.text).entry = some ⟨a.key, decodeEnvValue a.rawValue⟩ := by
  have hhead : ¬ (trim a.text = [] ∨ (trim a.text).head? = some hash) := by
    obtain ⟨c, rest, heq, hc⟩ := a.exists_head
    rw [a.trim_text, keyed, ← List.append_assoc, heq]
    rintro (h | h)
    · cases h
    · obtain rfl := Option.some.inj h
      exact absurd hc (by decide)
  have hindex : indexOf a.keyed equalsSign 0 = some a.keyText.length := by
    have hmem : equalsSign ∉ a.keyText := by
      rw [keyText, List.mem_append, not_or]
      exact ⟨a.notMem_key (by decide), a.beforeEquals.notMem isSpace_equalsSign⟩
    simpa [keyed] using indexOf_append [] a.rawValue hmem
  have hslice : slice a.keyed 0 a.keyText.length = a.keyText := by simp [slice, keyed]
  have hdrop : a.keyed.drop (a.keyText.length + 1) = a.rawValue := by simp [keyed]
  have hkey : ¬ (keyPattern.exec a.key).isNone = true := by
    rw [Option.isNone_iff_eq_none, Regex.exec_eq_none]
    exact fun h => h _ ((plain_keyPattern _ _ _).2 ⟨a.isKey, rfl⟩)
  rw [parseEnvLine, if_neg hhead, a.stripped_eq]
  simp only [hindex, hslice, a.trim_keyText, if_neg hkey, hdrop]

end Assignment

/-- Other lines have no entry. -/
lemma parseEnvLine_entry_of_not_assignment (n : ℕ) {l : Line} (h : l.assignment? = none) :
    (parseEnvLine n l.text).entry = none := by
  cases l with
  | assignment a => cases h
  | blank blanks =>
    have htrim : trim blanks.units = [] :=
      Trimmed.trim_append (w := []) ⟨nofun, nofun⟩ blanks.space
    simp [Line.text, parseEnvLine, htrim]
  | comment lead body hline =>
    have htrim : trim (lead.units ++ hash :: body) = hash :: trimEnd body := by
      rw [trim_append lead.space, trim_cons isSpace_hash]
    simp [Line.text, parseEnvLine, htrim]

/-! ### Splitting into lines -/

lemma splitLines_cons {line : Units} {lines : List Units} (hc : c ≠ lf ∧ c ≠ cr)
    (h : splitLines w = line :: lines) : splitLines (c :: w) = (c :: line) :: lines := by
  rw [splitLines, if_neg hc.1, if_neg fun h => hc.2 h.1, h]

/-- A line without line breaks is one line. -/
lemma splitLines_of_inLine (h : InLine w) : splitLines w = [w] := by
  induction w with
  | nil => rfl
  | cons c w ih =>
    obtain ⟨hc, hw⟩ := List.forall_mem_cons.1 h
    exact splitLines_cons hc (ih hw)

/-- The first line ends at the first line break. -/
lemma splitLines_append (h : InLine w) (e : LineEnd) (rest : Units) :
    splitLines (w ++ (e.text ++ rest)) = w :: splitLines rest := by
  induction w with
  | nil => cases e <;> simp [splitLines, LineEnd.text, lf, cr]
  | cons c w ih =>
    obtain ⟨hc, hw⟩ := List.forall_mem_cons.1 h
    exact splitLines_cons hc (ih hw)

lemma InLine.append (hv : InLine v) (hw : InLine w) : InLine (v ++ w) :=
  List.forall_mem_append.2 ⟨hv, hw⟩

lemma InLine.cons (hc : c ≠ lf ∧ c ≠ cr) (hw : InLine w) : InLine (c :: w) :=
  List.forall_mem_cons.2 ⟨hc, hw⟩

lemma inLine_written (v : Written) : InLine v.text := by
  cases v with
  | plain w htrim hfree hline => exact hline
  | quoted q w hmem hline =>
    have hq : q.unit ≠ lf ∧ q.unit ≠ cr := by cases q <;> decide
    exact (hline.cons hq).append (InLine.cons hq nofun)

lemma inLine_commentText (comment : Option Comment) : InLine (commentText comment) := by
  cases comment with
  | none => exact nofun
  | some comment => exact comment.before.inLine.append (comment.inLine.cons (by decide))

lemma inLine_line (l : Line) : InLine l.text := by
  cases l with
  | blank blanks => exact blanks.inLine
  | comment lead body hline => exact lead.inLine.append (hline.cons (by decide))
  | assignment a =>
    have hkey : InLine a.key := fun c hc => ⟨fun h => a.notMem_key (by decide) (h ▸ hc),
      fun h => a.notMem_key (by decide) (h ▸ hc)⟩
    have hexport : InLine a.prefixText := by
      unfold Assignment.prefixText
      cases a.exported with
      | none => exact nofun
      | some blanks =>
        exact InLine.append (by simp [InLine, exportPrefix, Js.units, lf, cr]) blanks.inLine
    have hvalue : InLine a.valueText := a.afterEquals.inLine.append
      ((inLine_written _).append ((inLine_commentText _).append a.trail.inLine))
    exact a.lead.inLine.append
      (hexport.append ((hkey.append a.beforeEquals.inLine).append (hvalue.cons (by decide))))

/-- **A text is split into its lines.** -/
lemma splitLines_text (t : EnvText) : splitLines t.text = t.lines.map Line.text := by
  obtain ⟨first, others⟩ := t
  induction others generalizing first with
  | nil => simpa [EnvText.text, EnvText.lines] using splitLines_of_inLine (inLine_line first)
  | cons other others ih =>
    rw [EnvText.text, List.flatMap_cons, List.append_assoc,
      splitLines_append (inLine_line first)]
    exact congrArg _ (ih other.2)

/-! ### What the rounds leave -/

variable {result : EnvParseResult} {n : ℕ} {raw : Units}

lemma lookup_cons (e : ParsedEnvEntry) (entries : List ParsedEnvEntry) (name : Units) :
    lookup (e :: entries) name = if e.name = name then some e.value else lookup entries name := by
  unfold lookup
  split_ifs with he <;> simp [he]

lemma lookup_setEntry (entries : List ParsedEnvEntry) (entry : ParsedEnvEntry) (name : Units) :
    lookup (setEntry entries entry) name =
      if entry.name = name then some entry.value else lookup entries name := by
  induction entries with
  | nil => exact lookup_cons entry [] name
  | cons e entries ih =>
    rw [setEntry]
    split_ifs with he hname hname
    · rw [lookup_cons, if_pos hname]
    · rw [lookup_cons, lookup_cons, if_neg hname, if_neg (he ▸ hname)]
    · rw [lookup_cons, ih, if_neg (hname ▸ he), if_pos hname]
    · rw [lookup_cons, lookup_cons, ih, if_neg hname]

/-- One round: the entry of its line wins, and nothing else changes. -/
lemma lookup_addLine (result : EnvParseResult) (n : ℕ) (raw name : Units) :
    lookup (addLine result n raw).entries name =
      match (parseEnvLine n raw).entry with
      | none => lookup result.entries name
      | some entry =>
        if entry.name = name then some entry.value else lookup result.entries name := by
  simp only [addLine]
  cases (parseEnvLine n raw).entry with
  | none => rfl
  | some entry => exact lookup_setEntry _ _ _

lemma warnings_addLine (result : EnvParseResult) (n : ℕ) (raw : Units) :
    result.warnings ++ (parseEnvLine n raw).warning.toList <+: (addLine result n raw).warnings := by
  simp only [addLine]
  cases (parseEnvLine n raw).entry with
  | none => exact List.prefix_rfl
  | some entry =>
    simp only
    split_ifs
    · exact List.prefix_append _ _
    · exact List.prefix_rfl

/-- A line that is neither blank nor a comment. -/
def Meant (raw : Units) : Prop := trim raw ≠ [] ∧ (trim raw).head? ≠ some hash

/-- The line has a warning, or its name is in the result. -/
def Reported (result : EnvParseResult) (n : ℕ) (raw : Units) : Prop :=
  (∃ w ∈ result.warnings, w.line = n ∧ w.raw = raw) ∨
    ∃ entry, (parseEnvLine n raw).entry = some entry ∧
      (lookup result.entries entry.name).isSome = true

/-- A later round keeps the warnings and the names. -/
lemma Reported.addLine (h : Reported result n raw) (m : ℕ) (other : Units) :
    Reported (addLine result m other) n raw := by
  rcases h with ⟨w, hw, hline⟩ | ⟨entry, hentry, hname⟩
  · exact .inl ⟨w, (warnings_addLine _ _ _).subset (List.mem_append_left _ hw), hline⟩
  · refine .inr ⟨entry, hentry, ?_⟩
    rw [lookup_addLine]
    cases (parseEnvLine m other).entry with
    | none => exact hname
    | some e =>
      simp only
      split_ifs
      · rfl
      · exact hname

lemma Reported.addLines (h : Reported result n raw) (m : ℕ) (raws : List Units) :
    Reported (addLines result m raws) n raw := by
  induction raws generalizing result m with
  | nil => exact h
  | cons other raws ih => exact ih (h.addLine m other) (m + 1)

/-- Its own round reports a line. -/
lemma reported_addLine (h : Meant raw) (result : EnvParseResult) (n : ℕ) :
    Reported (addLine result n raw) n raw := by
  have hwarned : ∀ reason, (parseEnvLine n raw).warning = some ⟨n, reason, raw⟩ →
      Reported (addLine result n raw) n raw := by
    intro reason hreason
    refine .inl ⟨⟨n, reason, raw⟩, (warnings_addLine _ _ _).subset ?_, rfl, rfl⟩
    simp [hreason]
  cases hentry : (parseEnvLine n raw).entry with
  | some entry =>
    refine .inr ⟨entry, hentry, ?_⟩
    simp [lookup_addLine, hentry]
  | none =>
    rw [parseEnvLine, if_neg (not_or.2 h)] at hentry hwarned
    revert hentry hwarned
    simp only
    generalize (if startsWithAt (trim raw) exportPrefix 0 = true then trim ((trim raw).drop 7)
      else trim raw) = stripped
    cases indexOf stripped equalsSign 0 with
    | none => exact fun hwarned _ => hwarned _ rfl
    | some eqIdx =>
      intro hwarned hentry
      simp only at hentry hwarned
      split_ifs at hentry hwarned
      exact hwarned _ rfl

/-- **No line is lost.** -/
lemma reported_addLines (hmeant : Meant raw) {raws : List Units} {i : ℕ} (h : raws[i]? = some raw) :
    Reported (addLines result n raws) (n + i) raw := by
  induction raws generalizing result n i with
  | nil => cases h
  | cons other raws ih =>
    cases i with
    | zero =>
      obtain rfl := Option.some.inj h
      exact (reported_addLine hmeant result n).addLines _ _
    | succ i =>
      rw [← Nat.succ_add_eq_add_succ]
      exact ih h

/-- **All rounds over lines of a text**: the last assignment of a name wins. -/
lemma lookup_addLines (name : Units) (ls : List Line) :
    lookup (addLines result n (ls.map Line.text)).entries name =
      (((ls.filterMap Line.assignment?).filter fun a => a.key = name).getLast?.map
        fun a => decodeEnvValue a.rawValue).or (lookup result.entries name) := by
  induction ls generalizing result n with
  | nil => rfl
  | cons l ls ih =>
    rw [List.map_cons, addLines, ih, lookup_addLine]
    cases ha : l.assignment? with
    | none => rw [parseEnvLine_entry_of_not_assignment n ha, List.filterMap_cons_none ha]
    | some a =>
      obtain rfl : l = .assignment a := by
        cases l <;> cases ha
        rfl
      rw [Line.text, a.parseEnvLine_entry n, List.filterMap_cons_some ha]
      by_cases hname : a.key = name
      · rw [List.filter_cons_of_pos (by simpa using hname), List.getLast?_cons]
        cases ((ls.filterMap Line.assignment?).filter fun a => a.key = name).getLast? <;>
          simp [hname]
      · rw [List.filter_cons_of_neg (by simpa using hname)]
        simp [hname]

/-! ### Decoded texts -/

/-- **What a decoded text is**: each key has the content of its last assignment, every line that
is neither blank nor a comment is in the result or has a warning, and no value keeps the quote that
delimits it. -/
structure Decodes (t : EnvText) (result : EnvParseResult) : Prop where
  values : ∀ key, lookup result.entries key = (t.last key).map fun a => a.written.content
  reported : ∀ i raw, (splitLines t.text)[i]? = some raw → Meant raw → Reported result (1 + i) raw
  unquoted : ∀ key a q value, t.last key = some a → a.written.quote? = some q →
    lookup result.entries key = some value → q.unit ∉ value

/-- The value of a key: what the parser decodes of its last assignment. -/
lemma lookup_parseEnvFile (t : EnvText) (key : Units) :
    lookup (parseEnvFile t.text).entries key =
      (t.last key).map fun a => decodeEnvValue a.rawValue := by
  rw [parseEnvFile, splitLines_text, lookup_addLines]
  exact Option.or_none

/-- **When a text is decoded**: exactly if the last assignment of each of its keys is clean. -/
theorem parseEnvFile_decodes_iff (t : EnvText) :
    Decodes t (parseEnvFile t.text) ↔ ∀ key a, t.last key = some a → a.Clean := by
  constructor
  · intro h key a ha
    have hvalue := h.values key
    rw [lookup_parseEnvFile, ha] at hvalue
    exact a.decodeEnvValue_rawValue_iff.1 (Option.some.inj hvalue)
  · intro h
    have hvalues : ∀ key, lookup (parseEnvFile t.text).entries key =
        (t.last key).map fun a => a.written.content := by
      intro key
      rw [lookup_parseEnvFile]
      exact Option.map_congr fun a ha => a.decodeEnvValue_rawValue_iff.2 (h key a ha)
    refine ⟨hvalues, fun i raw hraw hmeant => reported_addLines hmeant hraw, ?_⟩
    intro key a q value ha hq hvalue
    rw [hvalues, ha] at hvalue
    obtain rfl := Option.some.inj hvalue
    cases hw : a.written with
    | plain w htrim hfree hline hquote =>
      rw [hw] at hq
      cases hq
    | quoted q' w hmem hline =>
      rw [hw] at hq
      obtain rfl := Option.some.inj hq
      simpa [hw, Written.content] using hmem

/-- No blanks. -/
def noBlanks : Blanks := ⟨[], nofun, nofun⟩

/-- The assignment `KEY="a" # c`. -/
def commented : Assignment where
  lead := noBlanks
  exported := none
  key := units "KEY"
  isKey := ⟨75, units "EY", rfl, by decide, List.all_eq_true.1 (by decide)⟩
  beforeEquals := noBlanks
  afterEquals := noBlanks
  written := .quoted .double (units "a") (by decide) (by simp [InLine, units, lf, cr])
  comment := some
    ⟨⟨[32], by simp [isSpace], by simp [InLine, lf, cr]⟩, nofun, units " c", by
      simp [InLine, units, lf, cr]⟩
  trail := noBlanks
  plainKey := fun _ => by decide
  startsNoComment := nofun

/-- A quoted value with a comment behind it keeps its quotes. -/
theorem commented_keepsQuotes :
    commented.text = units "KEY=\"a\" # c" ∧
      (parseEnvFile commented.text).entries = [⟨units "KEY", units "\"a\""⟩] ∧
      ¬ Decodes ⟨.assignment commented, []⟩ (parseEnvFile commented.text) := by
  have hentries : (parseEnvFile commented.text).entries = [⟨units "KEY", units "\"a\""⟩] := by
    decide
  refine ⟨by decide, hentries, fun h => ?_⟩
  have hvalue := h.values (units "KEY")
  rw [hentries] at hvalue
  exact absurd hvalue (by decide)

end EnvParser
