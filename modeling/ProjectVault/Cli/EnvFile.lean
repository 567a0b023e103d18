import ProjectVault.Js.Units

/-!
The env file the CLI writes and the reader that is its inverse.
-/

namespace Cli

open Js

variable {keys : List Units} {text value : Units}

/-! ### The format -/

inductive EnvFileFormat where
  | dotenv | shell

@[ext] structure EnvFileEntry where
  key : Units
  value : Units

inductive RefusalReason where
  | nul | carriageReturn | unrepresentable
  deriving DecidableEq

inductive SerializeEnvFileResult where
  | ok (text : Units) (dotenvOnlyQuotedKeys : List Units)
  | refused (key : Units) (reason : RefusalReason)
  deriving DecidableEq

/-- The single code unit of an ASCII character. -/
abbrev unit (c : Char) : UInt16 := UInt16.ofNat c.toNat

def envFileHeader : Units :=
  units "# Written by pvault write-env. Contains secrets: do not commit, do not share.\n"

/-- `[A-Za-z_]`. -/
def isKeyStart (c : UInt16) : Bool :=
  (unit 'A' ≤ c && c ≤ unit 'Z') || (unit 'a' ≤ c && c ≤ unit 'z') || c == unit '_'

/-- `\w`. -/
def isKeyPart (c : UInt16) : Bool := isKeyStart c || (unit '0' ≤ c && c ≤ unit '9')

/-- The text matches `/^[A-Za-z_]\w*$/`. -/
def isValidEnvVarIdentifier : Units → Bool
  | [] => false
  | c :: cs => isKeyStart c && cs.all isKeyPart

/-! ### Writing -/

/-- The value contains the two characters `\n` or `\r`, the pattern `/\\[nr]/`. -/
def hasEscape : Units → Bool
  | [] => false
  | [_] => false
  | a :: b :: cs => (a == unit '\\' && (b == unit 'n' || b == unit 'r')) || hasEscape (b :: cs)

/-- `{ text, dotenvOnly }`. -/
structure Quoted where
  text : Units
  dotenvOnly : Bool

/-- A value between two delimiters. -/
def enclose (quote : UInt16) (value : Units) : Units := quote :: (value ++ [quote])

def quoteDotenv (value : Units) : Except RefusalReason Quoted :=
  if unit '\r' ∈ value then .error .carriageReturn
  else if unit '\'' ∉ value then .ok ⟨enclose (unit '\'') value, false⟩
  else if unit '`' ∉ value then .ok ⟨enclose (unit '`') value, true⟩
  else if unit '"' ∉ value ∧ unit '\n' ∉ value ∧ hasEscape value = false then
    .ok ⟨enclose (unit '"') value, true⟩
  else .error .unrepresentable

/-- The quote closed, escaped and opened again. -/
def shellEscapedQuote : Units := units "'\\''"

/-- A value between single quotes, its own single quotes escaped. -/
def shellQuoted (value : Units) : Units :=
  enclose (unit '\'') (replaceAll value (unit '\'') shellEscapedQuote)

/-- The line of an entry in the shell format. -/
def shellLine (e : EnvFileEntry) : Units :=
  units "export " ++ e.key ++ unit '=' :: (shellQuoted e.value ++ [unit '\n'])

/-- The line of an entry in the dotenv format. -/
def dotenvLine (key : Units) (quoted : Units) : Units :=
  key ++ unit '=' :: (quoted ++ [unit '\n'])

/-- The loop of the serializer, `lines` and `dotenvOnlyQuotedKeys` being its accumulators. -/
def serializeEntries (format : EnvFileFormat) :
    List EnvFileEntry → List Units → List Units → Except String SerializeEnvFileResult
  | [], lines, quotedKeys => .ok (.ok lines.flatten quotedKeys)
  | e :: es, lines, quotedKeys =>
    if isValidEnvVarIdentifier e.key = false then
      .error "serializeEnvFile: invalid environment variable name"
    else if 0 ∈ e.value then .ok (.refused e.key .nul)
    else
      match format with
      | .shell => serializeEntries format es (lines ++ [shellLine e]) quotedKeys
      | .dotenv =>
        match quoteDotenv e.value with
        | .error reason => .ok (.refused e.key reason)
        | .ok quoted =>
          serializeEntries format es (lines ++ [dotenvLine e.key quoted.text])
            (if quoted.dotenvOnly then quotedKeys ++ [e.key] else quotedKeys)

/-- `serializeEnvFile(entries, format)`, an error being the programmer error it throws. -/
def serializeEnvFile (entries : List EnvFileEntry) (format : EnvFileFormat) :
    Except String SerializeEnvFileResult :=
  serializeEntries format entries [envFileHeader] []

/-! ### Reading -/

/-- `parseEnvFile: unexpected content at offset …`. -/
structure ParseError where
  offset : ℕ

/-- Reads a run of single-quoted pieces joined by escaped quotes, `value` being what has been
read before `pos`. -/
def readShellValue (text : Units) (pos : ℕ) (value : Units) : Except ParseError (Units × ℕ) :=
  if text[pos]? ≠ some (unit '\'') then .error ⟨pos⟩
  else
    match _h : indexOf text (unit '\'') (pos + 1) with
    | none => .error ⟨pos⟩
    | some close =>
      if startsWithAt text (units "\\'") (close + 1) then
        readShellValue text (close + 1 + 2)
          (value ++ slice text (pos + 1) close ++ [unit '\''])
      else .ok (value ++ slice text (pos + 1) close, close + 1)
termination_by text.length - pos
decreasing_by
  have hb := indexOf_bounds _h
  omega

def readDotenvValue (text : Units) (start : ℕ) (quote : UInt16) :
    Except ParseError (Units × ℕ) :=
  match indexOf text quote start with
  | none => .error ⟨start⟩
  | some close => .ok (slice text start close, close + 1)

/-- The longest identifier a text starts with, with what follows it. -/
def spanKey : Units → Option (Units × Units)
  | [] => none
  | c :: cs => if isKeyStart c then some (c :: cs.takeWhile isKeyPart, cs.dropWhile isKeyPart)
      else none

/-- The match of an assignment pattern: the key, the length of the match and, in the dotenv
format, the opening quote. -/
structure AssignmentMatch where
  key : Units
  length : ℕ
  quote : UInt16

/-- `/^([A-Za-z_]\w*)=(['"`])/.exec(rest)`. -/
def matchDotenvAssignment (rest : Units) : Option AssignmentMatch :=
  match spanKey rest with
  | none => none
  | some (key, after) =>
    match after with
    | eq :: quote :: _ =>
      if eq = unit '=' ∧ quote ∈ [unit '\'', unit '`', unit '"'] then
        some ⟨key, key.length + 2, quote⟩
      else none
    | _ => none

/-- `/^export ([A-Za-z_]\w*)=/.exec(rest)`. -/
def matchShellAssignment (rest : Units) : Option AssignmentMatch :=
  if (units "export ").isPrefixOf rest then
    match spanKey (rest.drop 7) with
    | none => none
    | some (key, after) =>
      if after.head? = some (unit '=') then
        some ⟨key, 7 + key.length + 1, unit '\''⟩
      else none
  else none

/-- The entry read at an offset and the offset behind it. -/
def parseAssignment (text : Units) (pos : ℕ) (format : EnvFileFormat) :
    Except ParseError (EnvFileEntry × ℕ) :=
  let rest := text.drop pos
  match format with
  | .shell =>
    match matchShellAssignment rest with
    | none => .error ⟨pos⟩
    | some m =>
      match readShellValue text (pos + m.length) [] with
      | .error e => .error e
      | .ok (value, stop) => .ok (⟨m.key, value⟩, stop)
  | .dotenv =>
    match matchDotenvAssignment rest with
    | none => .error ⟨pos⟩
    | some m =>
      match readDotenvValue text (pos + m.length) m.quote with
      | .error e => .error e
      | .ok (value, stop) => .ok (⟨m.key, value⟩, stop)

/-! ### The offsets grow -/

/-- One round of the shell reader on a text whose next closing quote is known. -/
lemma readShellValue_of_indexOf {pos close : ℕ} (value : Units)
    (hquote : text[pos]? = some (unit '\''))
    (hindex : indexOf text (unit '\'') (pos + 1) = some close) :
    readShellValue text pos value =
      if startsWithAt text (units "\\'") (close + 1) then
        readShellValue text (close + 1 + 2)
          (value ++ slice text (pos + 1) close ++ [unit '\''])
      else .ok (value ++ slice text (pos + 1) close, close + 1) := by
  rw [readShellValue, if_neg (by simpa using hquote)]
  split
  · rename_i hnone
    rw [hindex] at hnone
    cases hnone
  · rename_i found hfound
    rw [hindex] at hfound
    cases hfound
    rfl

lemma readShellValue_end {pos : ℕ} {v : Units × ℕ} (h : readShellValue text pos value = .ok v) :
    pos < v.2 := by
  induction pos, value using readShellValue.induct text with
  | case1 pos value hquote =>
    rw [readShellValue, if_pos hquote] at h
    cases h
  | case2 pos value hquote hindex =>
    rw [readShellValue, if_neg hquote] at h
    split at h
    · cases h
    · simp_all
  | case3 pos value hquote close hindex hstarts ih =>
    have hb := indexOf_bounds hindex
    rw [readShellValue_of_indexOf value (by simpa using hquote) hindex, if_pos hstarts] at h
    have := ih h
    omega
  | case4 pos value hquote close hindex hstarts =>
    have hb := indexOf_bounds hindex
    rw [readShellValue_of_indexOf value (by simpa using hquote) hindex, if_neg hstarts] at h
    cases h
    show pos < close + 1
    omega

lemma readDotenvValue_end {start : ℕ} {quote : UInt16} {v : Units × ℕ}
    (h : readDotenvValue text start quote = .ok v) : start < v.2 := by
  rw [readDotenvValue] at h
  split at h
  · cases h
  · rename_i close hindex
    have hb := indexOf_bounds hindex
    cases h
    show start < close + 1
    omega

variable {format : EnvFileFormat}

lemma parseAssignment_end {pos : ℕ} {r : EnvFileEntry × ℕ}
    (h : parseAssignment text pos format = .ok r) : pos < r.2 := by
  cases format with
  | shell =>
    simp only [parseAssignment] at h
    split at h
    · cases h
    · split at h
      · cases h
      · rename_i value stop hread
        have := readShellValue_end hread
        cases h
        show pos < stop
        omega
  | dotenv =>
    simp only [parseAssignment] at h
    split at h
    · cases h
    · split at h
      · cases h
      · rename_i value stop hread
        have := readDotenvValue_end hread
        cases h
        show pos < stop
        omega

/-- The loop of the reader, `entries` being what has been read before `pos`. -/
def parseLines (text : Units) (format : EnvFileFormat) (pos : ℕ) (entries : List EnvFileEntry) :
    Except ParseError (List EnvFileEntry) :=
  if pos < text.length then
    let lineEnd := (indexOf text (unit '\n') pos).getD text.length
    let line := slice text pos lineEnd
    if line = [] ∨ line.head? = some (unit '#') then
      parseLines text format (pos + line.length + 1) entries
    else
      match _h : parseAssignment text pos format with
      | .error e => .error e
      | .ok (entry, stop) =>
        if stop < text.length ∧ text[stop]? ≠ some (unit '\n') then .error ⟨stop⟩
        else parseLines text format (stop + 1) (entries ++ [entry])
  else .ok entries
termination_by text.length - pos
decreasing_by
  · omega
  · have hend := parseAssignment_end _h
    change pos < stop at hend
    omega

def parseEnvFile (text : Units) (format : EnvFileFormat) :
    Except ParseError (List EnvFileEntry) :=
  parseLines text format 0 []

/-! ### The quote styles -/

/-- The quote styles of the dotenv format. -/
inductive QuoteStyle where
  | single | backtick | double

def QuoteStyle.delimiter : QuoteStyle → UInt16
  | .single => unit '\''
  | .backtick => unit '`'
  | .double => unit '"'

/-- The values a style carries literally: they do not contain its delimiter and, between
double quotes, neither a newline nor an escape that would be expanded. -/
def QuoteStyle.Usable (style : QuoteStyle) (value : Units) : Prop :=
  style.delimiter ∉ value ∧
    (style = .double → unit '\n' ∉ value ∧ hasEscape value = false)

/-- What a format cannot carry. -/
def Unrepresentable (format : EnvFileFormat) (value : Units) : Prop :=
  0 ∈ value ∨ (format = .dotenv ∧
    (unit '\r' ∈ value ∨ ∀ style : QuoteStyle, ¬ style.Usable value))

lemma quoteDotenv_ok {quoted : Quoted} (h : quoteDotenv value = .ok quoted) :
    ∃ style : QuoteStyle, style.Usable value ∧ quoted.text = enclose style.delimiter value := by
  rw [quoteDotenv] at h
  split at h
  · cases h
  split at h
  · rename_i hsingle
    cases h
    exact ⟨.single, ⟨hsingle, fun h => nomatch h⟩, rfl⟩
  split at h
  · rename_i hbacktick
    cases h
    exact ⟨.backtick, ⟨hbacktick, fun h => nomatch h⟩, rfl⟩
  split_ifs at h with hdouble
  cases h
  exact ⟨.double, ⟨hdouble.1, fun _ => hdouble.2⟩, rfl⟩

lemma quoteDotenv_error {reason : RefusalReason} (h : quoteDotenv value = .error reason) :
    unit '\r' ∈ value ∨ ∀ style : QuoteStyle, ¬ style.Usable value := by
  rw [quoteDotenv] at h
  split at h
  · rename_i hcr
    exact .inl hcr
  split at h
  · cases h
  rename_i hsingle
  split at h
  · cases h
  rename_i hbacktick
  split_ifs at h with hdouble
  refine .inr fun style hu => ?_
  cases style with
  | single => exact hsingle hu.1
  | backtick => exact hbacktick hu.1
  | double => exact hdouble ⟨hu.1, hu.2 rfl⟩

/-! ### What is written -/

/-- The line of an entry, without its newline. -/
inductive Written : EnvFileFormat → EnvFileEntry → Units → Prop where
  | shell (e : EnvFileEntry) (hkey : isValidEnvVarIdentifier e.key = true) :
      Written .shell e (units "export " ++ e.key ++ unit '=' :: shellQuoted e.value)
  | dotenv (e : EnvFileEntry) (style : QuoteStyle) (hkey : isValidEnvVarIdentifier e.key = true)
      (husable : style.Usable e.value) :
      Written .dotenv e (e.key ++ unit '=' :: enclose style.delimiter e.value)

/-- The text of the lines. -/
def joinLines (bodies : List Units) : Units := (bodies.map (· ++ [unit '\n'])).flatten

lemma shellLine_written (e : EnvFileEntry) (hkey : isValidEnvVarIdentifier e.key = true) :
    ∃ body, Written .shell e body ∧ shellLine e = body ++ [unit '\n'] :=
  ⟨_, .shell e hkey, by simp only [shellLine, List.append_assoc, List.cons_append]⟩

lemma dotenvLine_written {e : EnvFileEntry} {quoted : Quoted}
    (hkey : isValidEnvVarIdentifier e.key = true) (hquoted : quoteDotenv e.value = .ok quoted) :
    ∃ body, Written .dotenv e body ∧ dotenvLine e.key quoted.text = body ++ [unit '\n'] := by
  obtain ⟨style, husable, htext⟩ := quoteDotenv_ok hquoted
  refine ⟨_, .dotenv e style hkey husable, ?_⟩
  simp only [dotenvLine, htext, List.append_assoc, List.cons_append]

variable {entries : List EnvFileEntry}

/-- The serializer writes one line for each entry, in order. -/
lemma serializeEntries_ok {lines keys' : List Units}
    (h : serializeEntries format entries lines keys = .ok (.ok text keys')) :
    ∃ bodies, List.Forall₂ (Written format) entries bodies ∧
      text = lines.flatten ++ joinLines bodies := by
  induction entries generalizing lines keys with
  | nil =>
    cases h
    exact ⟨[], .nil, (List.append_nil _).symm⟩
  | cons e es ih =>
    unfold serializeEntries at h
    split at h
    · cases h
    rename_i hvalid
    have hkey : isValidEnvVarIdentifier e.key = true := by simpa using hvalid
    split at h
    · cases h
    cases format with
    | shell =>
      obtain ⟨bodies, hbodies, htext⟩ := ih h
      obtain ⟨body, hbody, hline⟩ := shellLine_written e hkey
      refine ⟨body :: bodies, .cons hbody hbodies, ?_⟩
      simp [htext, hline, joinLines]
    | dotenv =>
      dsimp only at h
      split at h
      · cases h
      · rename_i quoted hquoted
        obtain ⟨bodies, hbodies, htext⟩ := ih h
        obtain ⟨body, hbody, hline⟩ := dotenvLine_written hkey hquoted
        refine ⟨body :: bodies, .cons hbody hbodies, ?_⟩
        simp [htext, hline, joinLines]

/-- A refusal names an entry the format cannot carry. -/
lemma serializeEntries_refused {lines : List Units} {key : Units} {reason : RefusalReason}
    (h : serializeEntries format entries lines keys = .ok (.refused key reason)) :
    ∃ e ∈ entries, e.key = key ∧ Unrepresentable format e.value := by
  induction entries generalizing lines keys with
  | nil => cases h
  | cons e es ih =>
    unfold serializeEntries at h
    split at h
    · cases h
    split at h
    · rename_i hnul
      cases h
      exact ⟨e, List.mem_cons_self, rfl, .inl hnul⟩
    cases format with
    | shell =>
      obtain ⟨e', hmem, he'⟩ := ih h
      exact ⟨e', List.mem_cons_of_mem e hmem, he'⟩
    | dotenv =>
      dsimp only at h
      split at h
      · rename_i hquoted
        cases h
        exact ⟨e, List.mem_cons_self, rfl, .inr ⟨rfl, quoteDotenv_error hquoted⟩⟩
      · obtain ⟨e', hmem, he'⟩ := ih h
        exact ⟨e', List.mem_cons_of_mem e hmem, he'⟩

/-- Valid keys never raise the programmer error. -/
lemma serializeEntries_total (format : EnvFileFormat)
    (hkeys : ∀ e ∈ entries, isValidEnvVarIdentifier e.key = true) (lines keys : List Units) :
    ∃ result, serializeEntries format entries lines keys = .ok result := by
  induction entries generalizing lines keys with
  | nil => exact ⟨_, rfl⟩
  | cons e es ih =>
    have hkey := hkeys e List.mem_cons_self
    have ih := fun lines keys => ih (fun e' he' => hkeys e' (List.mem_cons_of_mem e he'))
      lines keys
    unfold serializeEntries
    rw [if_neg (by simp [hkey])]
    split
    · exact ⟨_, rfl⟩
    cases format with
    | shell => exact ih _ _
    | dotenv =>
      dsimp only
      split
      · exact ⟨_, rfl⟩
      · exact ih _ _

/-! ### What is read back -/

/-- An identifier is read to its end. -/
lemma spanKey_append {key : Units} (hkey : isValidEnvVarIdentifier key = true) {c : UInt16}
    (hc : isKeyPart c = false) (rest : Units) :
    spanKey (key ++ c :: rest) = some (key, c :: rest) := by
  cases key with
  | nil => cases hkey
  | cons k ks =>
    rw [isValidEnvVarIdentifier, Bool.and_eq_true] at hkey
    obtain ⟨hstart, hparts⟩ := hkey
    have hparts := List.all_eq_true.1 hparts
    rw [List.cons_append, spanKey, if_pos hstart, List.takeWhile_append_of_pos hparts,
      List.dropWhile_append_of_pos hparts, List.takeWhile_cons_of_neg (by simp [hc]),
      List.dropWhile_cons_of_neg (by simp [hc]), List.append_nil]

/-- A key is neither a comment nor an empty line. -/
lemma isKeyStart_head {key : Units} (hkey : isValidEnvVarIdentifier key = true) :
    ∃ c cs, key = c :: cs ∧ isKeyStart c = true := by
  cases key with
  | nil => cases hkey
  | cons c cs => exact ⟨c, cs, rfl, (Bool.and_eq_true_iff.1 hkey).1⟩

lemma readDotenvValue_enclosed {quote : UInt16} (hquote : quote ∉ value) (front rest : Units) :
    readDotenvValue (front ++ (value ++ quote :: rest)) front.length quote =
      .ok (value, front.length + value.length + 1) := by
  rw [readDotenvValue, indexOf_append front rest hquote]
  show Except.ok _ = _
  rw [slice_append]

/-- One round of the shell reader, up to the next quote. -/
lemma readShellValue_round {piece : Units} (hpiece : unit '\'' ∉ piece)
    (front rest value : Units) :
    readShellValue (front ++ unit '\'' :: (piece ++ unit '\'' :: rest)) front.length value =
      if (units "\\'").isPrefixOf rest then
        readShellValue (front ++ unit '\'' :: (piece ++ unit '\'' :: rest))
          (front.length + piece.length + 4) (value ++ piece ++ [unit '\''])
      else .ok (value ++ piece, front.length + piece.length + 2) := by
  have htext : front ++ unit '\'' :: (piece ++ unit '\'' :: rest) =
      (front ++ [unit '\'']) ++ (piece ++ unit '\'' :: rest) := by simp
  have hlen : (front ++ [unit '\'']).length = front.length + 1 := by simp
  have hindex := indexOf_append (front ++ [unit '\'']) rest hpiece
  have hslice := slice_append (front ++ [unit '\'']) piece (unit '\'' :: rest)
  rw [← htext, hlen] at hindex hslice
  rw [readShellValue_of_indexOf value (getElem?_length_append front _ _) hindex, hslice]
  have hstarts : startsWithAt (front ++ unit '\'' :: (piece ++ unit '\'' :: rest))
      (units "\\'") (front.length + 1 + piece.length + 1) = (units "\\'").isPrefixOf rest := by
    have hcut : front ++ unit '\'' :: (piece ++ unit '\'' :: rest) =
        (front ++ unit '\'' :: (piece ++ [unit '\''])) ++ rest := by simp
    rw [startsWithAt, hcut, List.drop_left' (by simp; omega)]
  rw [hstarts, show front.length + 1 + piece.length + 1 + 2 = front.length + piece.length + 4 by
    omega, show front.length + 1 + piece.length + 1 = front.length + piece.length + 2 by omega]

/-- A value without a quote of its own. -/
lemma shellQuoted_of_notMem {v : Units} (h : unit '\'' ∉ v) (rest : Units) :
    shellQuoted v ++ rest = unit '\'' :: (v ++ unit '\'' :: rest) := by
  rw [shellQuoted, replaceAll_of_notMem h, enclose]
  simp only [List.cons_append, List.append_assoc, List.nil_append]

/-- A value cut at its first quote. -/
lemma shellQuoted_append {piece : Units} (h : unit '\'' ∉ piece) (tail rest : Units) :
    shellQuoted (piece ++ unit '\'' :: tail) ++ rest =
      unit '\'' :: (piece ++ unit '\'' :: (units "\\'" ++ (shellQuoted tail ++ rest))) := by
  rw [shellQuoted, replaceAll_append, replaceAll_of_notMem h, replaceAll_cons_self, shellQuoted,
    enclose, enclose]
  have hquote : shellEscapedQuote = unit '\'' :: (units "\\'" ++ [unit '\'']) := by decide
  simp only [hquote, List.cons_append, List.append_assoc, List.nil_append]

/-- A value spliced around its quotes is read back whole. -/
lemma readShellValue_quoted (v : Units) {rest : Units}
    (hrest : (units "\\'").isPrefixOf rest = false) (front value : Units) :
    readShellValue (front ++ (shellQuoted v ++ rest)) front.length value =
      .ok (value ++ v, front.length + (shellQuoted v).length) := by
  induction h : v.length using Nat.strong_induction_on generalizing v front value with
  | _ n ih =>
    by_cases hmem : unit '\'' ∈ v
    · -- the piece before the first quote, then the escaped quote and the rest of the value
      obtain ⟨piece, tail, rfl, hpiece⟩ := List.eq_append_cons_of_mem hmem
      have hlen : tail.length < n := by
        rw [← h, List.length_append, List.length_cons]
        omega
      have hesc : (units "\\'").length = 2 := rfl
      have hcut := shellQuoted_append hpiece tail rest
      have htail := ih tail.length hlen tail
        (front ++ unit '\'' :: (piece ++ unit '\'' :: units "\\'"))
        (value ++ piece ++ [unit '\'']) rfl
      have hfront : (front ++ unit '\'' :: (piece ++ unit '\'' :: units "\\'")).length =
          front.length + piece.length + 4 := by
        simp only [List.length_append, List.length_cons, hesc]
        omega
      have htext : front ++ unit '\'' ::
            (piece ++ unit '\'' :: (units "\\'" ++ (shellQuoted tail ++ rest))) =
          (front ++ unit '\'' :: (piece ++ unit '\'' :: units "\\'")) ++
            (shellQuoted tail ++ rest) := by
        simp only [List.append_assoc, List.cons_append]
      have htotal : (shellQuoted (piece ++ unit '\'' :: tail)).length =
          piece.length + 4 + (shellQuoted tail).length := by
        have hsum := congrArg List.length hcut
        simp only [List.length_append, List.length_cons, hesc] at hsum
        omega
      rw [hcut, readShellValue_round hpiece,
        if_pos (List.isPrefixOf_iff_prefix.2 (List.prefix_append _ _)), htext, ← hfront, htail,
        hfront, htotal]
      simp only [List.append_assoc, List.cons_append, List.nil_append, Nat.add_assoc]
    · have hcut := shellQuoted_of_notMem hmem rest
      have htotal : (shellQuoted v).length = v.length + 2 := by
        have hsum := congrArg List.length hcut
        simp only [List.length_append, List.length_cons] at hsum
        omega
      rw [hcut, readShellValue_round hmem, if_neg (by simp [hrest]), htotal, Nat.add_assoc]

/-- An assignment is read up to its newline. -/
lemma parseAssignment_written {e : EnvFileEntry} {body : Units} (h : Written format e body)
    (front rest : Units) :
    parseAssignment (front ++ (body ++ unit '\n' :: rest)) front.length format =
      .ok (e, front.length + body.length) := by
  cases h with
  | shell _ hkey =>
    have htext :
        units "export " ++ e.key ++ unit '=' :: shellQuoted e.value ++ unit '\n' :: rest =
        units "export " ++ (e.key ++ unit '=' :: (shellQuoted e.value ++ unit '\n' :: rest)) := by
      simp only [List.append_assoc, List.cons_append]
    have hmatch : matchShellAssignment (units "export " ++ (e.key ++ unit '=' ::
        (shellQuoted e.value ++ unit '\n' :: rest))) =
          some ⟨e.key, 7 + e.key.length + 1, unit '\''⟩ := by
      rw [matchShellAssignment, if_pos (List.isPrefixOf_iff_prefix.2 (List.prefix_append _ _)),
        List.drop_left' (by rfl), spanKey_append hkey (by decide)]
      rfl
    have hfront : (front ++ (units "export " ++ e.key ++ [unit '='])).length =
        front.length + (7 + e.key.length + 1) := by
      have hexport : (units "export ").length = 7 := rfl
      simp only [List.length_append, List.length_singleton, hexport]
    have hcut : front ++ (units "export " ++ (e.key ++ unit '=' ::
          (shellQuoted e.value ++ unit '\n' :: rest))) =
        (front ++ (units "export " ++ e.key ++ [unit '='])) ++
          (shellQuoted e.value ++ unit '\n' :: rest) := by
      simp only [List.append_assoc, List.cons_append, List.nil_append]
    have hplain : (units "\\'").isPrefixOf (unit '\n' :: rest) = false := by rfl
    have hread := readShellValue_quoted e.value hplain
      (front ++ (units "export " ++ e.key ++ [unit '='])) []
    rw [← hcut, hfront] at hread
    simp only [parseAssignment, htext, List.drop_left, hmatch, hread]
    have hexport : (units "export ").length = 7 := rfl
    simp only [List.nil_append, List.length_append, List.length_cons, hexport]
    congr 2
    omega
  | dotenv _ style hkey husable =>
    have htext : e.key ++ unit '=' :: enclose style.delimiter e.value ++ unit '\n' :: rest =
        e.key ++ unit '=' :: style.delimiter ::
          (e.value ++ style.delimiter :: unit '\n' :: rest) := by
      simp only [enclose, List.append_assoc, List.cons_append, List.nil_append]
    have hmatch : matchDotenvAssignment (e.key ++ unit '=' :: style.delimiter ::
          (e.value ++ style.delimiter :: unit '\n' :: rest)) =
        some ⟨e.key, e.key.length + 2, style.delimiter⟩ := by
      rw [matchDotenvAssignment, spanKey_append hkey (by decide)]
      exact if_pos ⟨rfl, by cases style <;> decide⟩
    have hfront : (front ++ (e.key ++ [unit '=', style.delimiter])).length =
        front.length + (e.key.length + 2) := by
      simp only [List.length_append, List.length_cons, List.length_nil]
    have hcut : front ++ (e.key ++ unit '=' :: style.delimiter ::
          (e.value ++ style.delimiter :: unit '\n' :: rest)) =
        (front ++ (e.key ++ [unit '=', style.delimiter])) ++
          (e.value ++ style.delimiter :: unit '\n' :: rest) := by
      simp only [List.append_assoc, List.cons_append, List.nil_append]
    have hread := readDotenvValue_enclosed husable.1
      (front ++ (e.key ++ [unit '=', style.delimiter])) (unit '\n' :: rest)
    rw [← hcut, hfront] at hread
    simp only [parseAssignment, htext, List.drop_left, hmatch, hread]
    simp only [enclose, List.length_append, List.length_cons, List.length_nil]
    congr 2
    omega

lemma parseLines_comment (format : EnvFileFormat) (line : Units)
    (hline : line.head? = some (unit '#'))
    (hnewline : unit '\n' ∉ line) (front rest : Units) (entries : List EnvFileEntry) :
    parseLines (front ++ (line ++ unit '\n' :: rest)) format front.length entries =
      parseLines (front ++ (line ++ unit '\n' :: rest)) format (front.length + line.length + 1)
        entries := by
  rw [parseLines, if_pos (by simp)]
  simp only [indexOf_append front rest hnewline, Option.getD_some, slice_append]
  rw [if_pos (.inr hline)]

/-- The line of an entry is read as that entry. -/
lemma parseLines_written {e : EnvFileEntry} {body : Units} (h : Written format e body)
    (front rest : Units) (entries : List EnvFileEntry) :
    parseLines (front ++ (body ++ unit '\n' :: rest)) format front.length entries =
      parseLines (front ++ (body ++ unit '\n' :: rest)) format (front.length + body.length + 1)
        (entries ++ [e]) := by
  obtain ⟨c, cs, hbody, hnewline, hcomment⟩ :
      ∃ c cs, body = c :: cs ∧ c ≠ unit '\n' ∧ c ≠ unit '#' := by
    cases h with
    | shell _ hkey => exact ⟨unit 'e', _, rfl, by decide, by decide⟩
    | dotenv _ style hkey husable =>
      obtain ⟨c, cs, hkey, hc⟩ := isKeyStart_head hkey
      refine ⟨c, _, by rw [hkey]; rfl, ?_, ?_⟩
      · rintro rfl
        exact absurd hc (by decide)
      · rintro rfl
        exact absurd hc (by decide)
  have hget : (front ++ (body ++ unit '\n' :: rest))[front.length]? = some c := by
    rw [hbody]
    exact getElem?_length_append front c _
  have hassign := parseAssignment_written h front rest
  have hstop : (front ++ (body ++ unit '\n' :: rest))[front.length + body.length]? =
      some (unit '\n') := by
    rw [← List.append_assoc, ← List.length_append]
    exact getElem?_length_append (front ++ body) _ rest
  generalize htext : front ++ (body ++ unit '\n' :: rest) = text at *
  have hpos : front.length < text.length := by
    rw [← htext]
    simp
  have hend : front.length < (indexOf text (unit '\n') front.length).getD text.length := by
    cases hindex : indexOf text (unit '\n') front.length with
    | none => exact hpos
    | some i =>
      have hb := indexOf_bounds hindex
      refine lt_of_le_of_ne hb.1 fun heq => hnewline ?_
      have hi := getElem?_of_indexOf hindex
      rw [Option.getD_some] at heq
      rw [← heq, hget] at hi
      exact Option.some.inj hi
  have hhead := head?_slice text hend
  rw [hget] at hhead
  rw [parseLines, if_pos hpos]
  dsimp only
  rw [if_neg]
  · split
    · rename_i herror
      rw [hassign] at herror
      cases herror
    · rename_i entry stop hok
      rw [hassign] at hok
      cases hok
      rw [if_neg fun hjunk => hjunk.2 hstop]
  · rintro (hnil | hhash)
    · rw [hnil] at hhead
      cases hhead
    · exact hcomment (Option.some.inj (hhead.symm.trans hhash))

/-- The lines of the entries are read as the entries, in order. -/
lemma parseLines_joinLines {bodies : List Units} (h : List.Forall₂ (Written format) entries bodies)
    (front : Units) (before : List EnvFileEntry) :
    parseLines (front ++ joinLines bodies) format front.length before =
      .ok (before ++ entries) := by
  induction h generalizing front before with
  | nil =>
    rw [parseLines, if_neg (by simp [joinLines]), List.append_nil]
  | @cons e body entries bodies hbody _ ih =>
    have hjoin : joinLines (body :: bodies) = body ++ unit '\n' :: joinLines bodies := by
      simp [joinLines]
    have hcut : front ++ (body ++ unit '\n' :: joinLines bodies) =
        (front ++ (body ++ [unit '\n'])) ++ joinLines bodies := by
      simp only [List.append_assoc, List.cons_append, List.nil_append]
    have hfront : front.length + body.length + 1 = (front ++ (body ++ [unit '\n'])).length := by
      simp only [List.length_append, List.length_singleton, Nat.add_assoc]
    rw [hjoin, parseLines_written hbody, hcut, hfront, ih, List.append_assoc,
      List.singleton_append]

/-- What the serializer writes is read back. -/
lemma parseEnvFile_serialized (h : serializeEnvFile entries format = .ok (.ok text keys)) :
    parseEnvFile text format = .ok entries := by
  obtain ⟨bodies, hbodies, htext⟩ := serializeEntries_ok h
  have hheader : envFileHeader = envFileHeader.dropLast ++ [unit '\n'] := by decide
  have hcomment := parseLines_comment format envFileHeader.dropLast (by decide)
    (by decide) [] (joinLines bodies) []
  have hlen : 0 + envFileHeader.dropLast.length + 1 = envFileHeader.length := by decide
  rw [List.nil_append, ← List.singleton_append, ← List.append_assoc, ← hheader] at hcomment
  rw [parseEnvFile, htext, List.flatten_singleton]
  refine hcomment.trans ?_
  rw [List.length_nil, hlen]
  exact parseLines_joinLines hbodies envFileHeader []

/-- **The env file round trip**: whatever the values, a serialized list of entries is read
back as that list, and the serializer refuses only a value its format cannot carry. -/
theorem envFile_roundTrip (entries : List EnvFileEntry) (format : EnvFileFormat)
    (hkeys : ∀ e ∈ entries, isValidEnvVarIdentifier e.key = true) :
    (∃ result, serializeEnvFile entries format = .ok result) ∧
      (∀ text keys, serializeEnvFile entries format = .ok (.ok text keys) →
        parseEnvFile text format = .ok entries) ∧
      ∀ key reason, serializeEnvFile entries format = .ok (.refused key reason) →
        ∃ e ∈ entries, e.key = key ∧ Unrepresentable format e.value :=
  ⟨serializeEntries_total format hkeys _ _, fun _ _ h => parseEnvFile_serialized h,
    fun _ _ h => serializeEntries_refused h⟩

/-- Two values made to break out of their quotes, through both formats. -/
def hostileEntries : List EnvFileEntry :=
  [⟨units "TOKEN", units "it's\n# `x"⟩, ⟨units "_k2", units "\nPATH='/tmp\n"⟩]

theorem envFile_roundTrip_hostile :
    (∀ text keys, serializeEnvFile hostileEntries .shell = .ok (.ok text keys) →
      parseEnvFile text .shell = .ok hostileEntries) ∧
    ∃ e ∈ hostileEntries, e.key = units "TOKEN" ∧ Unrepresentable .dotenv e.value :=
  ⟨(envFile_roundTrip hostileEntries .shell (by decide)).2.1,
    (envFile_roundTrip hostileEntries .dotenv (by decide)).2.2 _ .unrepresentable
      (by decide +kernel)⟩

end Cli
