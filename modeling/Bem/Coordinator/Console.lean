import Mathlib.Algebra.BigOperators.Group.List.Basic
import Mathlib.Algebra.Order.Ring.Int
import Mathlib.Data.List.Basic
import Mathlib.Tactic.SplitIfs

/-!
# The console

The loop of `main` and the commands take words and numbers from the same stream, and nothing looks at
the state of the stream.  A word stands for what comes between two spaces, and a number may end before
its word does.
-/

namespace Bem

namespace Console

abbrev Token := List Char

/-- `std::cin`, with what has not been taken from it. -/
structure Istream where
  tokens : List Token
  failed : Bool := false

/-- The types of the arguments. -/
inductive IntType
  | int
  | uint32
  | uint64

namespace IntType

/-- The greatest value. -/
def max : IntType → Nat
  | int => 2 ^ 31 - 1
  | uint32 => 2 ^ 32 - 1
  | uint64 => 2 ^ 64 - 1

/-- How far the digits behind a minus may go.  An unsigned number is read without its sign and negated
then. -/
def maxNegated : IntType → Nat
  | int => 2 ^ 31
  | type => type.max

/-- What is stored for digits that go too far. -/
def limit (type : IntType) (negative : Bool) : Int :=
  match type, negative with
  | int, true => -2 ^ 31
  | type, _ => type.max

/-- What is stored for digits with a minus. -/
def negate (type : IntType) (magnitude : Nat) : Int :=
  match type with
  | int => -magnitude
  | type => (-magnitude : Int) % (type.max + 1)

end IntType

def decimal (digits : List Char) : Nat := digits.foldl (fun n c => 10 * n + (c.toNat - '0'.toNat)) 0

/-- What an extraction makes of a word: the value it stores, whether that is what stands there, and what
it leaves of the word. -/
structure Extracted where
  value : Int
  ok : Bool
  rest : Token

def behindSign : Token → Token
  | '-' :: digits | '+' :: digits => digits
  | digits => digits

/-- `std::num_get`. -/
def numGet (type : IntType) (token : Token) : Extracted :=
  let negative := token.head? == some '-'
  let digits := behindSign token
  let magnitude := decimal (digits.takeWhile Char.isDigit)
  let rest := digits.dropWhile Char.isDigit
  if (digits.takeWhile Char.isDigit).isEmpty then { value := 0, ok := false, rest }
  else if (if negative then type.maxNegated else type.max) < magnitude then
    { value := type.limit negative, ok := false, rest }
  else { value := if negative then type.negate magnitude else magnitude, ok := true, rest }

/-- The next word is what a number has left of its own, if anything. -/
def putBack (rest : Token) (tokens : List Token) : List Token :=
  if rest.isEmpty then tokens else rest :: tokens

namespace Istream

/-- `std::cin >> word`, where `word` has a value. -/
def getWord (word : Token) (cin : Istream) : Token × Istream :=
  if cin.failed then (word, cin)
  else
    match cin.tokens with
    | [] => (word, { cin with failed := true })
    | token :: tokens => (token, { cin with tokens })

/-- `std::cin >> value`. -/
def getNumber (type : IntType) (value : Int) (cin : Istream) : Int × Istream :=
  if cin.failed then (value, cin)
  else
    match cin.tokens with
    | [] => (value, { cin with failed := true })
    | token :: tokens =>
      let number := numGet type token
      (number.value, { tokens := putBack number.rest tokens, failed := !number.ok })

/-- `std::cin >> value₁ >> value₂ >> ...`, where `garbage` is in the variables. -/
def getNumbers : List IntType → (Nat → Int) → Istream → List Int × Istream
  | [], _, cin => ([], cin)
  | type :: types, garbage, cin =>
    let (value, cin) := cin.getNumber type (garbage 0)
    let (values, cin) := getNumbers types (fun i => garbage (i + 1)) cin
    (value :: values, cin)

end Istream

/-! ## The loop of `main` -/

inductive Word
  | help
  | terminate
  | task
  | nodes
  | tasks
  | cancel
  | games
  | quit
  deriving DecidableEq

namespace Word

/-- What `main` compares `cmd` with. -/
def ofToken (cmd : Token) : Option Word :=
  if cmd = "help".toList ∨ cmd = "?".toList then some help
  else if cmd = "terminate".toList then some terminate
  else if cmd = "task".toList then some task
  else if cmd = "nodes".toList then some nodes
  else if cmd = "tasks".toList then some tasks
  else if cmd = "cancel".toList then some cancel
  else if cmd = "games".toList then some games
  else if cmd = "quit".toList then some quit
  else none

/-- The variables that the command extracts, none of which has a value before. -/
def arguments : Word → List IntType
  | terminate => [.int]
  | task => [.uint64, .uint64, .uint64, .uint32, .uint32, .uint32]
  | cancel => [.uint32]
  | help | nodes | tasks | games | quit => []

end Word

/-- A command that is executed, with the arguments it goes by. -/
structure Command where
  word : Word
  arguments : List Int
  deriving DecidableEq

end Console

open Console

/-- What the loop of `main` goes by, and the commands it has executed. -/
structure Console where
  cin : Istream
  cmd : Token := []
  shouldQuit : Bool := false
  executed : List Command := []

namespace Console

/-- One iteration, where `garbage` is in the variables of a command. -/
def iterate (garbage : Nat → Int) (c : Console) : Console :=
  if c.shouldQuit then c
  else
    let (cmd, cin) := c.cin.getWord c.cmd
    match Word.ofToken cmd with
    -- `Invalid command.`
    | none => { c with cin, cmd }
    | some word =>
      let (arguments, cin) := cin.getNumbers word.arguments garbage
      { cin, cmd, shouldQuit := decide (word = .quit), executed := c.executed ++ [⟨word, arguments⟩] }

/-- The console after `n` iterations. -/
def run (input : List Token) (garbage : Nat → Nat → Int) : Nat → Console
  | 0 => { cin := { tokens := input } }
  | n + 1 => (run input garbage n).iterate (garbage n)

end Console

namespace Console

/-! ## What is typed -/

/-- The numbers at the front of the input, and what comes behind them. -/
def typedNumbers : List IntType → List Token → Option (List Int × List Token)
  | [], tokens => some ([], tokens)
  | _ :: _, [] => none
  | type :: types, token :: tokens =>
    let number := numGet type token
    if number.ok then
      (typedNumbers types (putBack number.rest tokens)).map fun r => (number.value :: r.1, r.2)
    else none

/-- The commands can be read off the input from left to right, and `rest` comes behind them. -/
inductive Reads (input : List Token) : List Token → List Command → Prop
  | start : Reads input input []
  | skip {token : Token} {tokens : List Token} {commands : List Command}
    (h : Reads input (token :: tokens) commands) : Reads input tokens commands
  | execute {token : Token} {tokens rest : List Token} {commands : List Command} {word : Word}
    {arguments : List Int} (h : Reads input (token :: tokens) commands)
    (hword : Word.ofToken token = some word)
    (harguments : typedNumbers word.arguments tokens = some (arguments, rest)) :
    Reads input rest (commands ++ [⟨word, arguments⟩])

/-- Each of the commands stands in the input with its arguments, and they come in its order. -/
def Typed (input : List Token) (commands : List Command) : Prop := ∃ rest, Reads input rest commands

/-- All arguments are numbers, and there is a `quit` or the last word is no command.  `cmd` is the word
before. -/
inductive EndsWell : Token → List Token → Prop
  | input {cmd : Token} (hword : Word.ofToken cmd = none) : EndsWell cmd []
  | quit {cmd token : Token} {tokens : List Token} (hword : Word.ofToken token = some .quit) :
    EndsWell cmd (token :: tokens)
  | other {cmd token : Token} {tokens : List Token} (hword : Word.ofToken token = none)
    (h : EndsWell token tokens) : EndsWell cmd (token :: tokens)
  | command {cmd token : Token} {tokens rest : List Token} {word : Word} {arguments : List Int}
    (hword : Word.ofToken token = some word)
    (harguments : typedNumbers word.arguments tokens = some (arguments, rest))
    (h : EndsWell token rest) : EndsWell cmd (token :: tokens)

variable {input tokens rest : List Token} {types : List IntType} {values : List Int}
variable {cin : Istream} {garbage : Nat → Int} {commands : List Command} {c : Console}

/-! ## Extractions -/

theorem getNumbers_failed (h : cin.failed = true) :
    (cin.getNumbers types garbage).2.failed = true := by
  induction types generalizing cin garbage with
  | nil => exact h
  | cons type types ih =>
    have hnumber : cin.getNumber type (garbage 0) = (garbage 0, cin) := by
      unfold Istream.getNumber
      rw [if_pos h]
    unfold Istream.getNumbers
    rw [hnumber]
    exact ih h

theorem getNumbers_typed (h : typedNumbers types tokens = some (values, rest)) :
    Istream.getNumbers types garbage { tokens } = (values, { tokens := rest }) := by
  induction types generalizing tokens values garbage with
  | nil =>
    cases h
    rfl
  | cons type types ih =>
    cases tokens with
    | nil => cases h
    | cons token tokens =>
      unfold typedNumbers at h
      dsimp only at h
      split at h
      next hok =>
        obtain ⟨r, hr, heq⟩ := Option.map_eq_some_iff.mp h
        cases heq
        have hrest : Istream.getNumbers types (fun i => garbage (i + 1))
            { tokens := putBack (numGet type token).rest tokens } = (r.1, { tokens := r.2 }) := ih hr
        unfold Istream.getNumbers Istream.getNumber
        simp [hok, hrest]
      next => cases h

theorem getNumbers_not_typed (h : typedNumbers types tokens = none) :
    (Istream.getNumbers types garbage { tokens }).2.failed = true := by
  induction types generalizing tokens garbage with
  | nil => cases h
  | cons type types ih =>
    cases tokens with
    | nil =>
      unfold Istream.getNumbers Istream.getNumber
      exact getNumbers_failed rfl
    | cons token tokens =>
      unfold typedNumbers at h
      dsimp only at h
      unfold Istream.getNumbers Istream.getNumber
      split at h
      next hok =>
        have hrest : (Istream.getNumbers types (fun i => garbage (i + 1))
            { tokens := putBack (numGet type token).rest tokens }).2.failed = true :=
          ih (Option.map_eq_none_iff.mp h)
        simpa [hok] using hrest
      next hok =>
        have hfails : (!(numGet type token).ok) = true := by simpa using hok
        simp only [Bool.false_eq_true, if_false]
        exact getNumbers_failed hfails

/-! ## How much is read -/

/-- The characters, with one between two words. -/
def size (tokens : List Token) : Nat := (tokens.map fun token => token.length + 1).sum

theorem rest_numGet (type : IntType) (token : Token) :
    (numGet type token).rest = (behindSign token).dropWhile Char.isDigit := by
  unfold numGet
  dsimp only
  split_ifs <;> rfl

theorem length_behindSign (token : Token) : (behindSign token).length ≤ token.length := by
  unfold behindSign
  split
  · simp
  · simp
  · exact Nat.le_refl _

theorem length_rest_numGet (type : IntType) (token : Token) :
    (numGet type token).rest.length ≤ token.length := by
  rw [rest_numGet]
  exact Nat.le_trans (List.dropWhile_suffix _).length_le (length_behindSign token)

theorem size_putBack_le (token : Token) (tokens : List Token) :
    size (putBack token tokens) ≤ size (token :: tokens) := by
  unfold putBack
  split
  · simp [size]
  · exact Nat.le_refl _

theorem size_typedNumbers (h : typedNumbers types tokens = some (values, rest)) :
    size rest ≤ size tokens := by
  induction types generalizing tokens values with
  | nil =>
    cases h
    exact Nat.le_refl _
  | cons type types ih =>
    cases tokens with
    | nil => cases h
    | cons token tokens =>
      unfold typedNumbers at h
      dsimp only at h
      split at h
      next =>
        obtain ⟨r, hr, heq⟩ := Option.map_eq_some_iff.mp h
        cases heq
        have hback := size_putBack_le (numGet type token).rest tokens
        have hnumber := length_rest_numGet type token
        have hrest := ih hr
        simp only [size, List.map_cons, List.sum_cons] at hback hrest ⊢
        omega
      next => cases h

theorem Reads.size (h : Reads input rest commands) :
    commands.length + Console.size rest ≤ Console.size input := by
  induction h with
  | start => simp
  | skip _ ih =>
    simp only [Console.size, List.map_cons, List.sum_cons] at ih ⊢
    omega
  | execute _ _ harguments ih =>
    have hrest := size_typedNumbers harguments
    simp only [Console.size, List.map_cons, List.sum_cons] at ih hrest ⊢
    rw [List.length_append, List.length_singleton]
    omega

/-! ## Inputs that end well -/

theorem getWord_of_failed {cin : Istream} (h : cin.failed = true) (cmd : Token) :
    cin.getWord cmd = (cmd, cin) := by
  unfold Istream.getWord
  rw [if_pos h]

theorem getWord_nil (h : cin = { tokens := [] }) (cmd : Token) :
    cin.getWord cmd = (cmd, { tokens := [], failed := true }) := by
  rw [h]
  rfl

theorem getWord_cons {token : Token} (h : cin = { tokens := token :: tokens }) (cmd : Token) :
    cin.getWord cmd = (token, { tokens }) := by
  rw [h]
  rfl

/-- A word that is no command is complained about. -/
theorem iterate_invalid {cmd : Token} {cin : Istream} (hquit : c.shouldQuit = false)
    (hword : c.cin.getWord c.cmd = (cmd, cin)) (hinvalid : Word.ofToken cmd = none) :
    c.iterate garbage = { c with cin, cmd } := by
  unfold iterate
  rw [if_neg (by simp [hquit]), hword]
  dsimp only
  rw [hinvalid]

theorem iterate_command {cmd : Token} {cin cin' : Istream} {word : Word} {arguments : List Int}
    (hquit : c.shouldQuit = false) (hword : c.cin.getWord c.cmd = (cmd, cin))
    (hcommand : Word.ofToken cmd = some word)
    (harguments : cin.getNumbers word.arguments garbage = (arguments, cin')) :
    c.iterate garbage =
      { cin := cin', cmd, shouldQuit := decide (word = .quit),
        executed := c.executed ++ [⟨word, arguments⟩] } := by
  unfold iterate
  rw [if_neg (by simp [hquit]), hword]
  dsimp only
  rw [hcommand]
  dsimp only
  rw [harguments]

/-- The commands that were executed were typed, and no others will be. -/
structure Sound (input : List Token) (c : Console) : Prop where
  typed : Typed input c.executed
  later : c.shouldQuit = false →
    (c.cin.failed = true ∧ Word.ofToken c.cmd = none) ∨
      ∃ tokens, c.cin = { tokens } ∧ Reads input tokens c.executed ∧ EndsWell c.cmd tokens

theorem Sound.iterate (h : c.Sound input) : (c.iterate garbage).Sound input := by
  cases hquit : c.shouldQuit with
  | true =>
    unfold Console.iterate
    rw [if_pos hquit]
    exact h
  | false =>
    cases h.later hquit with
    | inl hfailed =>
      -- the word of before is compared again
      rw [iterate_invalid hquit (getWord_of_failed hfailed.1 c.cmd) hfailed.2]
      exact ⟨h.typed, fun _ => Or.inl hfailed⟩
    | inr hreads =>
      obtain ⟨tokens, hcin, hreads, hends⟩ := hreads
      cases hends with
      | input hword =>
        rw [iterate_invalid hquit (getWord_nil hcin c.cmd) hword]
        exact ⟨h.typed, fun _ => Or.inl ⟨rfl, hword⟩⟩
      | @quit _ token tokens hword =>
        have hexecuted := hreads.execute hword (show typedNumbers [] tokens = some ([], tokens) from rfl)
        rw [iterate_command hquit (getWord_cons hcin c.cmd) hword rfl]
        exact ⟨⟨tokens, hexecuted⟩, fun h => by cases h⟩
      | @other _ token tokens hword hends =>
        rw [iterate_invalid hquit (getWord_cons hcin c.cmd) hword]
        exact ⟨h.typed, fun _ => Or.inr ⟨tokens, rfl, hreads.skip, hends⟩⟩
      | @command _ token tokens rest word arguments hword harguments hends =>
        have hexecuted := hreads.execute hword harguments
        rw [iterate_command hquit (getWord_cons hcin c.cmd) hword (getNumbers_typed harguments)]
        exact ⟨⟨_, hexecuted⟩, fun _ => Or.inr ⟨rest, rfl, hexecuted, hends⟩⟩

theorem sound_run (h : EndsWell [] input) (garbage : Nat → Nat → Int) (n : Nat) :
    (run input garbage n).Sound input := by
  induction n with
  | zero => exact ⟨⟨input, .start⟩, fun _ => Or.inr ⟨input, rfl, .start, h⟩⟩
  | succ n ih => exact ih.iterate

/-! ## Inputs that do not -/

/-- A command is executed again and again. -/
structure Stuck (c : Console) : Prop where
  failed : c.cin.failed = true
  running : c.shouldQuit = false
  command : ∃ word, Word.ofToken c.cmd = some word ∧ word ≠ .quit

/-- A command is not rid of once an argument of it, or the next word, has not been read. -/
theorem stuck_of_fails {cmd : Token} {cin : Istream} {word : Word} (hquit : c.shouldQuit = false)
    (hword : c.cin.getWord c.cmd = (cmd, cin)) (hcommand : Word.ofToken cmd = some word)
    (hne : word ≠ .quit) (hfails : (cin.getNumbers word.arguments garbage).2.failed = true) :
    (c.iterate garbage).Stuck := by
  rw [iterate_command hquit hword hcommand rfl]
  exact ⟨hfails, by simp [hne], word, hcommand, hne⟩

theorem Stuck.iterate (h : c.Stuck) : (c.iterate garbage).Stuck ∧
    (c.iterate garbage).executed.length = c.executed.length + 1 := by
  obtain ⟨word, hword, hne⟩ := h.command
  have htaken := getWord_of_failed h.failed c.cmd
  refine ⟨stuck_of_fails h.running htaken hword hne (getNumbers_failed h.failed), ?_⟩
  rw [iterate_command h.running htaken hword rfl, List.length_append, List.length_singleton]

/-- From an input that does not end well the loop comes to be stuck.  The induction is on what has not
been read. -/
theorem exists_stuck {garbage : Nat → Nat → Int} (n : Nat) (hquit : (run input garbage n).shouldQuit = false)
    (hcin : (run input garbage n).cin = { tokens })
    (hcmd : Word.ofToken (run input garbage n).cmd ≠ some .quit)
    (h : ¬EndsWell (run input garbage n).cmd tokens) : ∃ m, (run input garbage m).Stuck := by
  induction hsize : size tokens using Nat.strongRecOn generalizing tokens n with
  | ind k ih =>
    subst hsize
    cases tokens with
    | nil =>
      cases hword : Word.ofToken (run input garbage n).cmd with
      | none => exact absurd (.input hword) h
      | some word =>
        -- the input ends, and `cmd` keeps its word
        have hne : word ≠ .quit := fun heq => hcmd (by rw [hword, heq])
        exact ⟨n + 1, stuck_of_fails hquit (getWord_nil hcin _) hword hne (getNumbers_failed rfl)⟩
    | cons token tokens =>
      have htaken := getWord_cons hcin (run input garbage n).cmd
      have hless : size tokens < size (token :: tokens) := by
        simp only [size, List.map_cons, List.sum_cons]
        omega
      cases hword : Word.ofToken token with
      | none =>
        have hnext : run input garbage (n + 1) = _ := iterate_invalid hquit htaken hword
        refine ih (size tokens) hless (n + 1) ?_ ?_ ?_ ?_ rfl
        · rw [hnext]
          exact hquit
        · rw [hnext]
        · rw [hnext, hword]
          simp
        · rw [hnext]
          exact fun hends => h (.other hword hends)
      | some word =>
        have hne : word ≠ .quit := fun heq => h (.quit (by rw [hword, heq]))
        cases harguments : typedNumbers word.arguments tokens with
        | none =>
          exact ⟨n + 1, stuck_of_fails hquit htaken hword hne (getNumbers_not_typed harguments)⟩
        | some read =>
          have hnext : run input garbage (n + 1) = _ :=
            iterate_command hquit htaken hword (getNumbers_typed harguments)
          have hread := size_typedNumbers harguments
          refine ih (size read.2) (by omega) (n + 1) ?_ ?_ ?_ ?_ rfl
          · rw [hnext]
            simp [hne]
          · rw [hnext]
          · rw [hnext, hword]
            simpa using hne
          · rw [hnext]
            exact fun hends => h (.command hword harguments hends)

theorem stuck_run {garbage : Nat → Nat → Int} {m : Nat} (h : (run input garbage m).Stuck) (k : Nat) :
    (run input garbage (m + k)).Stuck ∧ k ≤ (run input garbage (m + k)).executed.length := by
  induction k with
  | zero => exact ⟨h, Nat.zero_le _⟩
  | succ k ih =>
    have hnext := @Stuck.iterate (garbage (m + k)) _ ih.1
    refine ⟨hnext.1, ?_⟩
    show k + 1 ≤ ((run input garbage (m + k)).iterate (garbage (m + k))).executed.length
    rw [hnext.2]
    exact Nat.succ_le_succ ih.2

theorem executed_typed_iff (input : List Token) (garbage : Nat → Nat → Int) :
    (∀ n, Typed input (run input garbage n).executed) ↔ EndsWell [] input := by
  constructor
  · intro htyped
    by_contra hends
    have hstart : Word.ofToken (run input garbage 0).cmd ≠ some .quit := by
      show Word.ofToken [] ≠ some .quit
      decide
    obtain ⟨m, hstuck⟩ := exists_stuck 0 rfl rfl hstart hends
    obtain ⟨rest, hreads⟩ := htyped (m + (size input + 1))
    -- more commands than the input has characters
    have hmany := (stuck_run hstuck (size input + 1)).2
    have hfew := hreads.size
    omega
  · exact fun h n => (sound_run h garbage n).typed

/-- At the end of the input `nodes` is executed again and again. -/
theorem nodes_executed_again :
    ¬∀ (input : List Token) (garbage : Nat → Nat → Int) (n : Nat),
      Typed input (run input garbage n).executed := by
  intro htyped
  obtain ⟨rest, hreads⟩ := htyped ["nodes".toList] (fun _ _ => 0) 7
  have hmany : (run ["nodes".toList] (fun _ _ => 0) 7).executed.length = 7 := by decide
  have hinput : size ["nodes".toList] = 6 := by decide
  have hfew := hreads.size
  omega

end Console

end Bem
