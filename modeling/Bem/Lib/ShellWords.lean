import Mathlib.Algebra.Order.BigOperators.Group.List
import Mathlib.Algebra.Order.Ring.Int
import Mathlib.Algebra.Order.Ring.Nat

/-!
# The words of a shell command

How a shell splits a line into the words of one simple command: blanks end a word, quotes and
backslashes are removed, a comment is skipped.  What the expansions make of a word depends on the shell
and on its environment, and is a parameter.  A line with an operator in it is more than one simple
command.
-/

namespace ShellWords

/-! ## Characters -/

def singleQuote : Char := Char.ofNat 39

def doubleQuote : Char := Char.ofNat 34

def backslash : Char := Char.ofNat 92

def backquote : Char := Char.ofNat 96

def openBrace : Char := Char.ofNat 123

def closeBrace : Char := Char.ofNat 125

def isBlank (c : Char) : Bool := c = ' ' || c = '\t'

/-- The characters that operators and line ends are made of. -/
def isOperator (c : Char) : Bool :=
  c = '\n' || c = ';' || c = '&' || c = '|' || c = '<' || c = '>' || c = '(' || c = ')'

def isQuoting (c : Char) : Bool := c = singleQuote || c = doubleQuote || c = backslash

/-- A character that stays in the word it is written in. -/
def isOrdinary (c : Char) : Bool := !isBlank c && !isOperator c && !isQuoting c

/-- The characters with which parameters, commands and the patterns of any text are written. -/
def isWild (c : Char) : Bool := c = '$' || c = backquote || c = '*' || c = '?'

/-- The characters without which there is no expansion, but for that of a home directory. -/
def isActive (c : Char) : Bool := isWild c || c = '[' || c = openBrace

/-- Whether a shell may expand what is written without quotes.  A bracket has to be closed, and a brace
has to have more than one text in it. -/
def mayExpand (raw : List Char) : Bool :=
  raw.any isWild || raw.head? = some '~' || ['[', ']'].isSublist raw ||
    [openBrace, ',', closeBrace].isSublist raw || [openBrace, '.', '.', closeBrace].isSublist raw

/-! ## Scanning -/

/-- A word as it is written and without its quotes, and whether it has an active character outside of
quotes. -/
structure Word where
  raw : List Char := []
  text : List Char := []
  active : Bool := false

def Word.expands (w : Word) : Bool := w.active && mayExpand w.raw

inductive Mode
  | plain
  | single
  | double
  | escape
  | doubleEscape
  | comment
  deriving DecidableEq

/-- The words that have ended and the one that has begun. -/
structure Scan where
  finished : List Word := []
  word : Option Word := none
  mode : Mode := .plain

namespace Scan

/-- Characters are added to the word, which begins if there is none. -/
def put (s : Scan) (raw text : List Char) (active : Bool) (mode : Mode) : Scan :=
  let w := s.word.getD {}
  { s with word := some ⟨w.raw ++ raw, w.text ++ text, w.active || active⟩, mode }

def finish (s : Scan) : Scan := { s with finished := s.finished ++ s.word.toList, word := none }

/-- One character more; `none` if the line is not one simple command. -/
def step (s : Scan) (c : Char) : Option Scan :=
  match s.mode with
  | .plain =>
    if isBlank c then some s.finish
    else if isOperator c then none
    else if c = '#' ∧ s.word.isNone then some { s with mode := .comment }
    else if c = backslash then some { s with mode := .escape }
    else if c = singleQuote then some (s.put [c] [] false .single)
    else if c = doubleQuote then some (s.put [c] [] false .double)
    else some (s.put [c] [c] (isActive c || (c = '~' && s.word.isNone)) .plain)
  | .single =>
    if c = singleQuote then some (s.put [c] [] false .plain)
    else some (s.put [c] [c] false .single)
  | .double =>
    if c = doubleQuote then some (s.put [c] [] false .plain)
    else if c = backslash then some { s with mode := .doubleEscape }
    else some (s.put [c] [c] (c = '$' || c = backquote) .double)
  | .escape =>
    -- a line that is continued
    if c = '\n' then some { s with mode := .plain }
    else some (s.put [backslash, c] [c] false .plain)
  | .doubleEscape =>
    if c = '\n' then some { s with mode := .double }
    else if c = '$' ∨ c = backquote ∨ c = doubleQuote ∨ c = backslash then
      some (s.put [backslash, c] [c] false .double)
    else some (s.put [backslash, c] [backslash, c] false .double)
  | .comment => if c = '\n' then none else some s

def words (s : Scan) : List Word := s.finished ++ s.word.toList

end Scan

/-- Scan a whole line, at the end of which no quote is open. -/
def scan (line : List Char) : Option (List Word) :=
  match line.foldlM Scan.step {} with
  | none => none
  | some s => if s.mode = .plain ∨ s.mode = .comment then some s.words else none

/-- `name=`, with which an assignment begins. -/
def isAssignment (raw : List Char) : Bool :=
  let name := raw.takeWhile (· ≠ '=')
  raw.contains '=' && name.all (fun c => c.isAlphanum || c = '_') &&
    name.head?.any (fun c => !c.isDigit)

/-- A shell in its environment. -/
structure Shell where
  /-- The fields that a word with expansions comes to. -/
  expand : List Char → List (List Char)

/-- The fields of the command, behind the assignments before it. -/
def Shell.fields (sh : Shell) (ws : List Word) : List (List Char) :=
  (ws.dropWhile fun w => isAssignment w.raw).flatMap fun w =>
    if w.expands then sh.expand w.raw else [w.text]

/-- What the command is given: its name and its arguments. -/
def Shell.arguments (sh : Shell) (line : List Char) : Option (List (List Char)) :=
  (scan line).map sh.fields

example (sh : Shell) : sh.arguments "x=1 play 'Tic Tac' Toe # 3".toList =
    some ["play".toList, "Tic Tac".toList, "Toe".toList] := rfl

/-! ## Words that stand for themselves -/

/-- A word that is what is written. -/
structure Literal (t : List Char) : Prop where
  nonempty : t ≠ []
  chars : ∀ c ∈ t, isOrdinary c
  comment : t.head? ≠ some '#'
  unexpanded : mayExpand t = false

/-- Words with a blank before each of them. -/
def spaced (ts : List (List Char)) : List Char := ts.flatMap fun t => ' ' :: t

/-- The word that is written without quotes. -/
def bareWord (t : List Char) : Word := ⟨t, t, t.any isActive || t.head? = some '~'⟩

/-- What is added to a word does not change how it begins. -/
theorem bareWord_concat (c d : Char) (t : List Char) : bareWord (c :: (t ++ [d])) =
    ⟨c :: t ++ [d], c :: t ++ [d], (bareWord (c :: t)).active || isActive d⟩ := by
  simp [bareWord, Bool.or_assoc, Bool.or_comm, Bool.or_left_comm]

theorem active_of_mayExpand {t : List Char} (h : mayExpand t) : (bareWord t).active := by
  have hmem {c : Char} {l : List Char} (hc : isActive c) (hsub : (c :: l).isSublist t) :
      t.any isActive :=
    List.any_eq_true.mpr ⟨c, (List.isSublist_iff_sublist.mp hsub).subset List.mem_cons_self, hc⟩
  unfold mayExpand at h
  simp only [Bool.or_eq_true] at h
  unfold bareWord
  rcases h with (((hwild | hhome) | hbracket) | hlist) | hrange
  · obtain ⟨c, hc, hwild⟩ := List.any_eq_true.mp hwild
    have : t.any isActive := List.any_eq_true.mpr ⟨c, hc, by simp [isActive, hwild]⟩
    simp [this]
  · simp [hhome]
  · simp [hmem (by decide) hbracket]
  · simp [hmem (by decide) hlist]
  · simp [hmem (by decide) hrange]

/-- Without quotes the expansions are all that can be known. -/
theorem expands_bareWord (t : List Char) : (bareWord t).expands = mayExpand t := by
  unfold Word.expands
  cases h : mayExpand t with
  | false =>
    change ((bareWord t).active && mayExpand t) = false
    rw [h, Bool.and_false]
  | true =>
    change ((bareWord t).active && mayExpand t) = true
    rw [h, active_of_mayExpand h, Bool.and_true]

namespace Scan

theorem step_ordinary {s : Scan} {c : Char} (hmode : s.mode = .plain) (hc : isOrdinary c)
    (hcomment : ¬ (c = '#' ∧ s.word.isNone)) :
    s.step c = some (s.put [c] [c] (isActive c || (c = '~' && s.word.isNone)) .plain) := by
  unfold isOrdinary isQuoting at hc
  simp only [Bool.and_eq_true, Bool.not_eq_true', Bool.or_eq_false_iff, decide_eq_false_iff_not] at hc
  obtain ⟨⟨hblank, hoperator⟩, ⟨hsingle, hdouble⟩, hbackslash⟩ := hc
  unfold step
  rw [hmode]
  dsimp only
  rw [if_neg (by simp [hblank]), if_neg (by simp [hoperator]), if_neg hcomment, if_neg hbackslash,
    if_neg hsingle, if_neg hdouble]

/-- A word that has begun goes on. -/
theorem foldlM_ordinary {s : Scan} {c : Char} {t u : List Char} (hmode : s.mode = .plain)
    (hword : s.word = some (bareWord (c :: t))) (hu : ∀ d ∈ u, isOrdinary d) :
    u.foldlM step s = some { s with word := some (bareWord (c :: t ++ u)) } := by
  induction u generalizing s t with
  | nil =>
    rw [List.append_nil]
    cases s
    cases hword
    rfl
  | cons d u ih =>
    rw [List.forall_mem_cons] at hu
    have hstep := step_ordinary hmode hu.1 (by simp [hword])
    have hput : (s.put [d] [d] (isActive d || (d = '~' && s.word.isNone)) .plain).word =
        some (bareWord (c :: (t ++ [d]))) := by
      unfold put
      rw [hword, bareWord_concat]
      simp [bareWord]
    rw [List.foldlM_cons, hstep]
    refine (ih rfl hput hu.2).trans ?_
    unfold put
    simp [hmode]

/-- A literal word and the blank before it end the word that has begun. -/
theorem foldlM_spaced {s : Scan} {ts : List (List Char)} (hmode : s.mode = .plain)
    (hts : ∀ t ∈ ts, Literal t) : ∃ s', (spaced ts).foldlM step s = some s' ∧ s'.mode = .plain ∧
      s'.words = s.words ++ ts.map bareWord := by
  induction ts generalizing s with
  | nil => exact ⟨s, rfl, hmode, (List.append_nil _).symm⟩
  | cons t ts ih =>
    rw [List.forall_mem_cons] at hts
    obtain ⟨hliteral, hts⟩ := hts
    have hblank : s.step ' ' = some s.finish := by
      unfold step
      rw [hmode]
      rfl
    obtain ⟨c, t, rfl⟩ : ∃ c t', t = c :: t' := List.exists_cons_of_ne_nil hliteral.nonempty
    have hchars := List.forall_mem_cons.mp hliteral.chars
    -- the blank has left no word, so that the first character begins one
    have hfirst := @step_ordinary s.finish c hmode hchars.1
      (fun ⟨hc, _⟩ => hliteral.comment (by rw [hc]; rfl))
    have hput : (s.finish.put [c] [c] (isActive c || (c = '~' && s.finish.word.isNone)) .plain).word =
        some (bareWord [c]) := by
      unfold put finish bareWord
      simp
    have hword := foldlM_ordinary rfl hput hchars.2
    obtain ⟨s', hrest, hmode', hwords⟩ :=
      @ih { s.finish with word := some (bareWord (c :: t)), mode := .plain } rfl hts
    refine ⟨s', ?_, hmode', ?_⟩
    · change ((' ' :: c :: t) ++ spaced ts).foldlM step s = some s'
      rw [List.foldlM_append, List.foldlM_cons, hblank]
      change ((c :: t).foldlM step s.finish >>= _) = _
      rw [List.foldlM_cons, hfirst]
      change (t.foldlM step _ >>= _) = _
      rw [hword]
      exact hrest
    · rw [hwords]
      unfold words finish
      simp

end Scan

/-! ## What a line can hold

Every character makes the words longer by one character or adds an end to one of them, and most that
stand for something else do neither.  A line that comes to as much as it can therefore has none of
those. -/

def weight (ws : List Word) : Nat := (ws.map fun w => w.text.length + 1).sum

namespace Scan

/-- The weight of the words, with the character that an open backslash will add. -/
def size (s : Scan) : Nat :=
  weight s.finished + (s.word.getD {}).text.length + 1 + if s.mode = .doubleEscape then 1 else 0

theorem weight_append (ws ws' : List Word) : weight (ws ++ ws') = weight ws + weight ws' := by
  unfold weight
  rw [List.map_append, List.sum_append]

theorem weight_words_le (s : Scan) : weight s.words ≤ s.size := by
  unfold words size
  rw [weight_append]
  cases s.word with
  | none =>
    simp only [Option.toList_none, Option.getD_none, weight, List.map_nil, List.sum_nil,
      List.length_nil]
    omega
  | some w =>
    simp only [Option.toList_some, Option.getD_some, weight, List.map_cons, List.map_nil,
      List.sum_cons, List.sum_nil]
    omega

theorem size_put (s : Scan) (raw text : List Char) (active : Bool) (mode : Mode) :
    (s.put raw text active mode).size = weight s.finished + (s.word.getD {}).text.length + 1 +
      text.length + if mode = .doubleEscape then 1 else 0 := by
  unfold put size
  simp only [Option.getD_some, List.length_append]
  omega

theorem size_finish {s : Scan} (hmode : s.mode = .plain) :
    s.finish.size = s.size + if s.word.isNone then 0 else 1 := by
  unfold finish size
  rw [weight_append, hmode]
  cases s.word with
  | none => simp [weight]
  | some w =>
    simp [weight]
    omega

/-- What a step can do.  Outside of quotes a word ends or gets a character that it is written with; what
is quoted is added elsewhere; and what only changes the mode adds nothing. -/
inductive Effect (s : Scan) (c : Char) : Scan → Prop
  | ended (mode : s.mode = .plain) (blank : isBlank c) : Effect s c s.finish
  | grown (mode : s.mode = .plain) (ordinary : isOrdinary c) (comment : ¬ (c = '#' ∧ s.word.isNone)) :
      Effect s c (s.put [c] [c] (isActive c || (c = '~' && s.word.isNone)) .plain)
  | quoted {raw text : List Char} {active : Bool} {mode : Mode} (stays : mode ≠ .doubleEscape)
      (length : text.length ≤
        (if s.mode = .plain then 0 else 1) + if s.mode = .doubleEscape then 1 else 0) :
      Effect s c (s.put raw text active mode)
  | moved {mode : Mode} (stays : s.mode = .plain → mode ≠ .doubleEscape) : Effect s c { s with mode }

theorem effect_step {s s' : Scan} {c : Char} (h : s.step c = some s') : s.Effect c s' := by
  unfold step at h
  split at h
  next hmode =>
    -- outside of quotes
    split at h
    next hblank =>
      cases h
      exact .ended hmode hblank
    split at h
    · cases h
    split at h
    · cases h
      exact .moved fun _ => by decide
    split at h
    · cases h
      exact .moved fun _ => by decide
    split at h
    · cases h
      exact .quoted (by decide) (Nat.zero_le _)
    split at h
    · cases h
      exact .quoted (by decide) (Nat.zero_le _)
    next hblank hoperator hcomment hbackslash hsingle hdouble =>
      cases h
      refine .grown hmode ?_ hcomment
      simp [isOrdinary, isQuoting, hblank, hoperator, hbackslash, hsingle, hdouble]
  next hmode =>
    split at h
    · cases h
      exact .quoted (by decide) (Nat.zero_le _)
    · cases h
      exact .quoted (by decide) (by simp [hmode])
  next hmode =>
    split at h
    · cases h
      exact .quoted (by decide) (Nat.zero_le _)
    split at h
    · cases h
      exact .moved fun hplain => by rw [hmode] at hplain; cases hplain
    · cases h
      exact .quoted (by decide) (by simp [hmode])
  next hmode =>
    split at h
    · cases h
      exact .moved fun _ => by decide
    · cases h
      exact .quoted (by decide) (by simp [hmode])
  next hmode =>
    split at h
    · cases h
      exact .moved fun _ => by decide
    -- the backslash may come back with the character
    split at h
    · cases h
      exact .quoted (by decide) (by simp [hmode])
    · cases h
      exact .quoted (by decide) (by simp [hmode])
  next hmode =>
    split at h
    · cases h
    · cases h
      exact .moved fun hplain => by rw [hmode] at hplain; cases hplain

theorem size_step_le {s s' : Scan} {c : Char} (h : s.step c = some s') : s'.size ≤ s.size + 1 := by
  cases effect_step h with
  | ended hmode hblank =>
    rw [size_finish hmode]
    split <;> omega
  | grown hmode hordinary hcomment =>
    rw [size_put, if_neg (by decide), size, hmode]
    exact le_refl _
  | quoted hopen hlength =>
    -- the character of an open backslash has been counted when the backslash came
    rw [size_put, if_neg hopen, size]
    split at hlength <;> omega
  | moved hopen =>
    unfold size
    dsimp only
    split <;> omega

/-- The characters that lengthen the words outside of quotes. -/
theorem step_of_size_lt {s s' : Scan} {c : Char} (hmode : s.mode = .plain) (h : s.step c = some s')
    (hsize : s.size < s'.size) : isBlank c ∧ s' = s.finish ∨
      isOrdinary c ∧ ¬ (c = '#' ∧ s.word.isNone) ∧
        s' = s.put [c] [c] (isActive c || (c = '~' && s.word.isNone)) .plain := by
  cases effect_step h with
  | ended _ hblank => exact Or.inl ⟨hblank, rfl⟩
  | grown _ hordinary hcomment => exact Or.inr ⟨hordinary, hcomment, rfl⟩
  | quoted hopen hlength =>
    rw [hmode, if_pos rfl, if_neg (by decide)] at hlength
    rw [size_put, if_neg hopen, size, hmode, if_neg (by decide)] at hsize
    omega
  | moved hopen =>
    unfold size at hsize
    dsimp only at hsize
    rw [if_neg (hopen hmode)] at hsize
    omega

end Scan

/-- A word that is written without quotes. -/
structure Word.Bare (w : Word) : Prop where
  eq_bareWord : w = bareWord w.text
  nonempty : w.text ≠ []
  chars : ∀ c ∈ w.text, isOrdinary c
  comment : w.text.head? ≠ some '#'

theorem Word.Bare.literal {w : Word} (h : w.Bare) (hw : w.expands = false) : Literal w.text := by
  rw [h.eq_bareWord, expands_bareWord] at hw
  exact ⟨h.nonempty, h.chars, h.comment, hw⟩

namespace Scan

/-- So far the line has only had blanks that end a word and characters of words without quotes. -/
structure Tidy (s : Scan) : Prop where
  mode : s.mode = .plain
  bare : ∀ w ∈ s.words, w.Bare

theorem words_finish (s : Scan) : s.finish.words = s.words := List.append_nil _

theorem bare_put {s : Scan} {c : Char} (h : s.Tidy) (hc : isOrdinary c)
    (hcomment : ¬ (c = '#' ∧ s.word.isNone)) :
    Word.Bare ⟨(s.word.getD {}).raw ++ [c], (s.word.getD {}).text ++ [c],
      (s.word.getD {}).active || (isActive c || (c = '~' && s.word.isNone))⟩ := by
  cases hword : s.word with
  | none =>
    rw [hword] at hcomment
    constructor
    · simp [bareWord]
    · simp
    · simpa using hc
    · simpa using hcomment
  | some w =>
    have hw : w.Bare := h.bare w (by unfold words; rw [hword]; simp)
    obtain ⟨d, text, htext⟩ : ∃ d text, w.text = d :: text :=
      List.exists_cons_of_ne_nil hw.nonempty
    have hbare := hw.eq_bareWord
    have hfirst := hw.comment
    rw [htext] at hbare hfirst
    constructor
    · simp only [Option.getD_some, Option.isNone_some, Bool.and_false, Bool.or_false]
      rw [hbare]
      exact (bareWord_concat d c text).symm
    · simp
    · intro x hx
      rcases List.mem_append.mp hx with hx | hx
      · exact hw.chars x hx
      · rw [List.mem_singleton.mp hx]
        exact hc
    · simpa [htext] using hfirst

theorem Tidy.step {s s' : Scan} {c : Char} (h : s.Tidy) (hstep : s.step c = some s')
    (hsize : s.size < s'.size) : s'.Tidy := by
  rcases step_of_size_lt h.mode hstep hsize with ⟨-, rfl⟩ | ⟨hc, hcomment, rfl⟩
  · refine ⟨h.mode, ?_⟩
    rw [words_finish]
    exact h.bare
  · refine ⟨rfl, fun w hw => ?_⟩
    rcases List.mem_append.mp hw with hw | hw
    · exact h.bare w (List.mem_append_left _ hw)
    · rw [List.mem_singleton.mp hw]
      exact bare_put h hc hcomment

theorem size_foldlM_le {s s' : Scan} {line : List Char} (h : line.foldlM Scan.step s = some s') :
    s'.size ≤ s.size + line.length := by
  induction line generalizing s with
  | nil =>
    cases h
    exact le_refl _
  | cons c line ih =>
    rw [List.foldlM_cons, Option.bind_eq_bind, Option.bind_eq_some_iff] at h
    obtain ⟨s₁, hstep, hrest⟩ := h
    have hfirst := size_step_le hstep
    have hlast := ih hrest
    rw [List.length_cons]
    omega

/-- A line that comes to as much as it can has been tidy all along. -/
theorem Tidy.foldlM {s s' : Scan} {line : List Char} (hs : s.Tidy)
    (h : line.foldlM Scan.step s = some s') (hsize : s.size + line.length ≤ s'.size) : s'.Tidy := by
  induction line generalizing s with
  | nil =>
    cases h
    exact hs
  | cons c line ih =>
    rw [List.foldlM_cons, Option.bind_eq_bind, Option.bind_eq_some_iff] at h
    obtain ⟨s₁, hstep, hrest⟩ := h
    have hfirst := size_step_le hstep
    have hlast := size_foldlM_le hrest
    rw [List.length_cons] at hsize
    exact ih (hs.step hstep (by omega)) hrest (by omega)

end Scan

/-! ## The arguments of a spaced line -/

/-- No word at the front is taken for an assignment. -/
def Unassigned (ts : List (List Char)) : Prop := ∀ t, ts.head? = some t → isAssignment t = false

theorem length_spaced (ts : List (List Char)) :
    (spaced ts).length = (ts.map fun t => t.length + 1).sum := List.length_flatMap

/-- Literal words with blanks between them are the arguments, in every shell. -/
theorem arguments_spaced (sh : Shell) {ts : List (List Char)} (hts : ∀ t ∈ ts, Literal t)
    (hfirst : Unassigned ts) : sh.arguments (spaced ts) = some ts := by
  obtain ⟨s, hscan, hmode, hwords⟩ := @Scan.foldlM_spaced {} ts rfl hts
  have hall : scan (spaced ts) = some (ts.map bareWord) := by
    unfold scan
    rw [hscan]
    dsimp only
    rw [if_pos (Or.inl hmode), hwords]
    rfl
  -- the first word is the name of the command
  have hkept : (ts.map bareWord).dropWhile (fun w => isAssignment w.raw) = ts.map bareWord := by
    cases ts with
    | nil => rfl
    | cons t ts => exact List.dropWhile_cons_of_neg (by simp [bareWord, hfirst t rfl])
  unfold Shell.arguments Shell.fields
  rw [hall, Option.map_some, hkept, List.flatMap_map]
  have hsame : ∀ t ∈ ts, (if (bareWord t).expands then sh.expand (bareWord t).raw
      else [(bareWord t).text]) = [t] := by
    intro t ht
    rw [expands_bareWord, (hts t ht).unexpanded, if_neg Bool.false_ne_true]
    rfl
  rw [List.flatMap_congr hsame]
  exact congrArg some (List.flatMap_singleton' ts)

/-- A shell in whose environment every expansion comes to nothing. -/
def emptied : Shell := ⟨fun _ => []⟩

theorem fields_emptied (ws : List Word) : emptied.fields ws =
    ((ws.dropWhile fun w => isAssignment w.raw).filter fun w => !w.expands).map Word.text := by
  unfold Shell.fields emptied
  induction ws.dropWhile fun w => isAssignment w.raw with
  | nil => rfl
  | cons w ws ih =>
    rw [List.flatMap_cons, ih]
    cases hexpands : w.expands <;> simp [hexpands]

theorem weight_le_of_sublist {ws ws' : List Word} (h : ws.Sublist ws') : weight ws ≤ weight ws' :=
  (h.map fun w : Word => w.text.length + 1).sum_le_sum fun _ _ => Nat.zero_le _

/-- A part of the words that weighs as much as all of them is all of them. -/
theorem eq_of_sublist {ws ws' : List Word} (h : ws.Sublist ws') (hweight : weight ws' ≤ weight ws) :
    ws = ws' := by
  induction h with
  | slnil => rfl
  | @cons ws ws' w hsub ih =>
    have hle := weight_le_of_sublist hsub
    simp only [weight, List.map_cons, List.sum_cons] at hweight hle
    omega
  | @cons_cons ws ws' w hsub ih =>
    simp only [weight, List.map_cons, List.sum_cons, Nat.add_le_add_iff_left] at hweight ih
    rw [ih hweight]

theorem scan_eq_some {line : List Char} {ws : List Word} (h : scan line = some ws) :
    ∃ s, line.foldlM Scan.step {} = some s ∧ ws = s.words := by
  unfold scan at h
  cases hline : line.foldlM Scan.step {} with
  | none =>
    rw [hline] at h
    cases h
  | some s =>
    rw [hline] at h
    dsimp only at h
    split at h
    · cases h
      exact ⟨s, rfl, rfl⟩
    · cases h

/-- A line that begins with a blank has no more room than for words with a blank before each of them. -/
theorem literal_of_arguments {line : List Char} {ts : List (List Char)}
    (h : emptied.arguments (' ' :: line) = some ts) (hlength : line.length + 1 ≤ (spaced ts).length) :
    (∀ t ∈ ts, Literal t) ∧ Unassigned ts ∧ line.length + 1 = (spaced ts).length := by
  unfold Shell.arguments at h
  obtain ⟨ws, hscan, hfields⟩ := Option.map_eq_some_iff.mp h
  obtain ⟨s, hline, rfl⟩ := scan_eq_some hscan
  change line.foldlM Scan.step {} = some s at hline
  -- the words that are left after the expansions weigh as much as the line has room for
  rw [fields_emptied] at hfields
  let rest := s.words.dropWhile fun w => isAssignment w.raw
  let kept := rest.filter fun w => !w.expands
  have hkept : kept.map Word.text = ts := hfields
  have hweight : weight kept = (spaced ts).length := by
    rw [length_spaced, ← hkept, List.map_map]
    rfl
  have hsub : kept.Sublist s.words := List.filter_sublist.trans (List.dropWhile_sublist _)
  have hle := weight_le_of_sublist hsub
  have hwords := s.weight_words_le
  have hsize : s.size ≤ 1 + line.length := Scan.size_foldlM_le hline
  have hall : kept = s.words := eq_of_sublist hsub (by omega)
  have htidy : s.Tidy :=
    Scan.Tidy.foldlM ⟨rfl, fun w hw => by cases hw⟩ hline (by change 1 + line.length ≤ _; omega)
  refine ⟨?_, ?_, by omega⟩
  · intro t ht
    rw [← hkept] at ht
    obtain ⟨w, hw, rfl⟩ := List.mem_map.mp ht
    have hexpands : w.expands = false := by simpa using (List.mem_filter.mp hw).2
    exact (htidy.bare w (hsub.subset hw)).literal hexpands
  · intro t ht
    rw [← hkept, hall] at ht
    cases hs : s.words with
    | nil =>
      rw [hs] at ht
      cases ht
    | cons w ws =>
      rw [hs] at ht
      cases ht
      have hraw : w.raw = w.text :=
        congrArg Word.raw (htidy.bare w (by rw [hs]; exact List.mem_cons_self)).eq_bareWord
      rw [← hraw]
      -- otherwise the first word would be missing
      by_contra hassignment
      have hlost : rest.length ≤ ws.length := by
        have hdrop : rest = ws.dropWhile fun w => isAssignment w.raw := by
          simp only [rest, hs]
          exact List.dropWhile_cons_of_pos (by simpa using hassignment)
        rw [hdrop]
        exact (List.dropWhile_sublist _).length_le
      have hlen : kept.length ≤ rest.length := List.length_filter_le _ _
      rw [hall, hs, List.length_cons] at hlen
      omega

end ShellWords
