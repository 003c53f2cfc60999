import StubLoader.Host
import StubLoader.Shell.Format
import StubLoader.Shell.Token
/-!
# Shell scripts

The plain commands of a shell: a few that are built in, with output sent to the error stream or to
nowhere, values of names, and conditions. Commands follow one another until one of them ends the
script; brackets around commands are left out.
-/

namespace StubLoader.Shell

/-! ### Commands -/

/-- What has to hold for a command to be run. -/
inductive Condition where
  | always
  | success
  | failure
  /-- The command that hands its output on was run. -/
  | piped
  deriving DecidableEq

/-- Where the output of a stream goes. -/
inductive Target where
  | stream (word : Word)
  | file (word : Word)
  deriving DecidableEq

/-- A command with its words and redirections. -/
structure Command where
  condition : Condition
  line : Nat
  words : List Word
  /-- Where streams go, by their numbers, from left to right. -/
  redirections : List (Char × Target)
  /-- Whether the output is the input of the next command. -/
  handsOn : Bool
  /-- Whether the command was left open. -/
  unclosed : Bool
  deriving DecidableEq

/-- A command before its first word. -/
def Command.start (condition : Condition) (line : Nat) : Command :=
  ⟨condition, line, [], [], false, false⟩

/-- The line in which a command ends. -/
def Command.lastLine (c : Command) : Nat :=
  c.words.foldl (fun line word => line + word.breaks) c.line

/-- The characters of a sign. -/
def isSign (text : String) (chars : List Char) : Bool := chars = text.toList

/-- The sign of negation. -/
def negation : Word := [.char '!']

/-- The commands of tokens. Negation before commands that hand output on is for the last of them. A
sign that redirects takes the word after it. -/
def commandsFrom (now : Command) : List Token → List Command
  | [] => [now]
  | .word w :: tokens => commandsFrom { now with words := now.words ++ [w] } tokens
  | .stream digit :: .sign s :: .word w :: tokens => redirected digit s w tokens
  | .stream _ :: tokens => commandsFrom now tokens
  | .unclosed lines :: tokens =>
    commandsFrom { now with line := now.line + lines, unclosed := true } tokens
  | .sign s :: tokens =>
    if isSign "\n" s then now :: commandsFrom (.start .always (now.lastLine + 1)) tokens
    else if isSign "&&" s then now :: commandsFrom (.start .success now.lastLine) tokens
    else if isSign "||" s then now :: commandsFrom (.start .failure now.lastLine) tokens
    else if isSign "|" s then
      let (signs, words) := now.words.span (· = negation)
      let next := Command.start .piped now.lastLine
      { now with words, handsOn := true } :: commandsFrom { next with words := signs } tokens
    else if s.head? = some '>' ∨ s.head? = some '<' then
      match tokens with
      | .word w :: tokens => redirected (if isSign "<" s then '0' else '1') s w tokens
      | tokens => commandsFrom now tokens
    else now :: commandsFrom (.start .always now.lastLine) tokens
where
  /-- Goes on after a redirection. -/
  redirected (digit : Char) (s : List Char) (w : Word) (tokens : List Token) : List Command :=
    let target := if isSign ">&" s then Target.stream w else Target.file w
    commandsFrom { now with redirections := now.redirections ++ [(digit, target)] } tokens

/-! ### Running -/

/-- How a script ends. -/
inductive Ending where
  | status (code : Nat)
  | signal
  deriving DecidableEq

/-- What a script has done so far. -/
structure Progress where
  /-- The name that messages give. -/
  name : String
  stdout : Bytes
  stderr : Bytes
  /-- What the next command may read. -/
  input : Bytes
  /-- Whether the last command was run. -/
  ran : Bool
  /-- The values of names. -/
  values : List (List Char × List Char)
  /-- The exit code of the last command. -/
  last : Nat
  ended : Option Ending

/-- Where bytes go. -/
inductive Sink where
  | output
  | error
  | nowhere
  deriving DecidableEq

/-- Where the two streams of a command go. -/
structure Sinks where
  out : Sink
  err : Sink

/-- Writes bytes. -/
def Progress.write (p : Progress) (sink : Sink) (bytes : Bytes) : Progress :=
  match sink with
  | .output => { p with stdout := p.stdout ++ bytes }
  | .error => { p with stderr := p.stderr ++ bytes }
  | .nowhere => p

/-- Ends a command with an exit code. -/
def Progress.ending (p : Progress) (code : Nat) : Progress := { p with last := code }

/-- What a name stands for. -/
def Progress.value (p : Progress) (name : List Char) : List Char :=
  if name = ['?'] then Nat.toDigits 10 p.last
  else if name = ['$'] then ['1']
  else if name = ['0'] then p.name.toList
  else if name = ['#'] then ['0']
  else (p.values.lookup name).getD []

/-- The text of a word; nothing if it is made of empty values only. -/
def Progress.expand? (p : Progress) (w : Word) : Option (List Char) :=
  let text := w.flatMap fun
    | .char c => [c]
    | .quotes => []
    | .value name => p.value name
  if text.isEmpty ∧ !w.contains .quotes then none else some text

/-- The sinks of a command. -/
def Progress.sinks (p : Progress) (redirections : List (Char × Target)) : Sinks :=
  redirections.foldl (fun s (digit, target) =>
    let sink := match target with
      | .stream w => if p.expand? w = some ['2'] then s.err else s.out
      | .file w =>
        if p.expand? w = some "/dev/stdout".toList then s.out
        else if p.expand? w = some "/dev/stderr".toList then s.err
        else .nowhere
    if digit = '1' then { s with out := sink }
    else if digit = '2' then { s with err := sink }
    else s) ⟨.output, .error⟩

/-- Words with blanks between them. -/
def spaced (words : List (List Char)) : List Char := List.intercalate [' '] words

/-- The signals that end no process: none at all, and those that a process sleeps through. -/
def harmless : List String := ["-0", "-CHLD", "-CONT", "-URG", "-WINCH", "-17", "-18", "-23", "-28"]

/-- Whether a comparison holds. -/
def compares : List (List Char) → Bool
  | [word] => !word.isEmpty
  | [sign, word] => isSign "-n" sign && !word.isEmpty || isSign "-z" sign && word.isEmpty
  | [a, sign, b] =>
    isSign "=" sign && a = b || isSign "!=" sign && a ≠ b
      || isSign "-eq" sign && decimal a = decimal b || isSign "-ne" sign && decimal a ≠ decimal b
  | _ => false

/-- The names of commands that do nothing and succeed. -/
def idle : List String := ["true", ":", "sleep", "ulimit", "trap", "set", "cd", "wait"]

/-- Says what is wrong in a line. -/
def Progress.complain (p : Progress) (sink : Sink) (line : Nat) (text : String) : Progress :=
  p.write sink (Utf8.ofString (p.name ++ ": " ++ toString line ++ ": " ++ text ++ "\n"))

/-- Runs one command with its arguments. -/
def Progress.command (p : Progress) (line : Nat) (s : Sinks) (command : String)
    (args : List (List Char)) : Progress :=
  let complain (code : Nat) (text : String) : Progress := (p.complain s.err line text).ending code
  let truth (holds : Bool) : Progress := p.ending (if holds then 0 else 1)
  match command, args with
  | "printf", [] => complain 2 "printf: usage: printf format [arg ...]"
  | "printf", text :: args =>
    let out := format (args.length + 1) text args
    let p := out.faults.foldl (fun p fault => p.complain s.err line ("printf: " ++ fault)) p
    (p.write s.out out.bytes).ending (if out.faults.isEmpty then 0 else 1)
  | "echo", args =>
    let quiet := args.head? = some ['-', 'n']
    let (bytes, ended) := resolve 0 (spaced (if quiet then args.tail else args))
    (p.write s.out (bytes ++ if quiet || ended then [] else [10])).ending 0
  | "exit", [] | "return", [] => { p with ended := some (.status p.last) }
  | "exit", word :: _ | "return", word :: _ =>
    if word.isEmpty ∨ !word.all Char.isDigit then
      { complain 2 (command ++ ": Illegal number: " ++ String.ofList word) with
        ended := some (.status 2) }
    else { p with ended := some (.status (decimal word % 256)) }
  | "kill", signal :: _ =>
    if harmless.contains (String.ofList signal) then p.ending 0
    else { p with ended := some .signal }
  | "cat", [] => (p.write s.out p.input).ending 0
  | "test", words => truth (compares words)
  | "[", words => truth (compares words.dropLast)
  | "cat", file :: _ =>
    let text := "cat: " ++ String.ofList file ++ ": No such file or directory\n"
    if isSign "/dev/null" file then p.ending 0
    else (p.write s.err (Utf8.ofString text)).ending 1
  | "false", _ | "!", [] | "read", _ => p.ending 1
  | command, _ =>
    if idle.contains command then p.ending 0
    else if command = "" then complain 127 ": Permission denied"
    else complain 127 (command ++ ": not found")

/-- The name and the value that a word gives to it. -/
def Progress.binding? (p : Progress) (w : Word) : Option (List Char × List Char) :=
  let name := w.takeWhile (· ≠ .char '=')
  let chars := name.filterMap fun
    | .char c => some c
    | _ => none
  if chars.length = name.length ∧ chars.head?.any (fun c => c.isAlpha || c = '_')
      ∧ chars.all (fun c => c.isAlphanum || c = '_') ∧ name.length < w.length then
    some (chars, (p.expand? (w.drop (name.length + 1))).getD [])
  else none

/-- The commands that are programs too. -/
def programs : List String := ["true", "false", "echo", "printf", "cat", "kill", "sleep", "test"]

/-- Runs the words of a command. Bindings before the first other word are for the command, and last
if there is no other word. -/
def Progress.words (p : Progress) (c : Command) (s : Sinks) : Progress :=
  let bindings := c.words.takeWhile fun w => (p.binding? w).isSome
  match (c.words.drop bindings.length).filterMap p.expand? with
  | [] => { p with values := bindings.filterMap p.binding? ++ p.values, last := 0 }
  | command :: args =>
    let replacing := isSign "exec" command ∧ args ≠ []
    let name := if replacing then args.headD [] else command
    let place := ["/usr/bin/", "/bin/"].find? fun place => place.toList.isPrefixOf name
    let bare := name.drop (place.getD "").length
    let name := if place.isSome ∧ programs.contains (String.ofList bare) then bare else name
    let done := p.command c.line s (String.ofList name) (if replacing then args.tail else args)
    if replacing ∧ done.ended.isNone then { done with ended := some (.status done.last) } else done

/-- Whether a condition holds after the last command. -/
def Condition.holds (p : Progress) : Condition → Bool
  | .always => true
  | .success => p.last = 0
  | .failure => p.last ≠ 0
  | .piped => p.ran

/-- The words around and before commands that are no commands. -/
def brackets : List Word := [[.char '\x7b'], [.char '\x7d']]

/-- Puts back what a command by itself cannot change: names, and that the script goes on. -/
def Progress.apart (before after : Progress) : Progress :=
  match after.ended with
  | some (.status code) => { after with values := before.values, ended := none, last := code }
  | some .signal | none => { after with values := before.values }

/-- Runs one command. Commands that hand output on run by themselves, and a sign of negation before
a command turns its result around. -/
def Progress.step (p : Progress) (c : Command) : Progress :=
  if p.ended.isSome then p
  else if !c.condition.holds p then { p with ran := false }
  else if c.unclosed then
    { p.complain .error c.line "Syntax error: Unterminated quoted string" with
      ended := some (.status 2) }
  else
    let plain := c.words.dropWhile brackets.contains
    let negated := plain.head? = some negation ∧ plain.tail ≠ []
    let words := if negated then plain.tail else plain
    if words.isEmpty ∧ c.redirections.isEmpty then { p with ran := true }
    else
      let cut := c.redirections.any (·.1 = '0')
      let start := { p with stdout := [], input := if cut then [] else p.input }
      let done := start.words { c with words } (p.sinks c.redirections)
      let done := if c.handsOn || c.condition = .piped then start.apart done else done
      let last := if negated then (if done.last = 0 then 1 else 0) else done.last
      let done := { done with last, ran := true }
      if c.handsOn then { done with stdout := p.stdout, input := done.stdout }
      else { done with stdout := p.stdout ++ done.stdout, input := [] }

/-- Runs a script under the name that its messages give. -/
def run (name : String) (script : List Char) : ProcessOutput :=
  let start : Progress := ⟨name, [], [], [], true, [], 0, none⟩
  let p := (commandsFrom (.start .always 1) (tokens script)).foldl Progress.step start
  match p.ended.getD (.status p.last) with
  | .status code => ⟨some code, code = 0, p.stdout, p.stderr⟩
  | .signal => ⟨none, false, p.stdout, p.stderr⟩

/-- The program that the first line of a file names to run it. -/
def interpreter? (file : Bytes) : Option Bytes :=
  let isBlank (b : UInt8) : Bool := b = 32 || b = 9
  match file with
  | 35 :: 33 :: rest =>
    let name := (rest.dropWhile isBlank).takeWhile fun b => !isBlank b && b ≠ 10 && b ≠ 0
    if name.isEmpty then none else some name
  | _ => none

end StubLoader.Shell
