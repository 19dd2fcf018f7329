import Mathlib

/-!
# Chat commands

A command is looked for in a table by an abbreviation of its name; one with child commands looks
for the next word in them. The levels of the commands are those of the database.
-/

namespace Projectnelth.ChatCommandModel

/-- `ChatCommand`, with handlers of some type. -/
inductive ChatCommand (η : Type)
  /-- A name, a security level, a handler, a help text and child commands. -/
  | mk (Name : List Char) (SecurityLevel : UInt32) (Handler : Option η) (Help : List Char)
    (ChildCommands : List (ChatCommand η))

variable {η : Type}

namespace ChatCommand

def Name : ChatCommand η → List Char
  | mk name _ _ _ _ => name

def SecurityLevel : ChatCommand η → UInt32
  | mk _ level _ _ _ => level

def Handler : ChatCommand η → Option η
  | mk _ _ handler _ _ => handler

def Help : ChatCommand η → List Char
  | mk _ _ _ help _ => help

def ChildCommands : ChatCommand η → List (ChatCommand η)
  | mk _ _ _ _ children => children

/-- The data of a command are overwritten. -/
def setData (security : UInt32) (help : List Char) : ChatCommand η → ChatCommand η
  | mk name _ handler _ children => mk name security handler help children

end ChatCommand

/-- The names of a table. -/
def names (table : List (ChatCommand η)) : List (List Char) := table.map ChatCommand.Name

def hasStringAbbr (name part : List Char) : Bool :=
  match name,part with
  | [],_ => true
  | _::_,[] => false
  | name,part => abbreviates name part
where
  /-- The loop of `hasStringAbbr`. -/
  abbreviates : List Char → List Char → Bool
    | _,[] => true
    | [],_::_ => false
    | n::name,p::part => if n.toLower≠p.toLower then false else abbreviates name part

/-- `isAvailable`, for a session with a security level. -/
def isAvailable (security : UInt32) (cmd : ChatCommand η) : Bool := cmd.SecurityLevel ≤ security

/-- The first word of a text. -/
def word (text : List Char) : List Char := text.takeWhile fun c => c ≠ ' '

/-- The text behind its first word. -/
def behind (text : List Char) : List Char :=
  (text.dropWhile fun c => c ≠ ' ').dropWhile fun c => c = ' '

/-- Whether a name of the table that is as the word was typed goes before a longer one. -/
def exactMatch (table : List (List Char)) (name cmd : List Char) : Bool :=
  cmd.length < name.length && table.any fun other => hasStringAbbr other cmd && other=cmd

/-- What `SendSysMessage` and `ShowHelpForCommand` print. -/
inductive Message
  | LANG_NO_SUBCMD
  | LANG_CMD_SYNTAX
  /-- The help text of a command. -/
  | help (text : List Char)
  /-- `ShowHelpForCommand`, for the child commands with these names. -/
  | showHelp (names : List (List Char)) (subcmd : List Char)

/-- A command that a level of the tree gave a word to. -/
structure Dispatch (η : Type) where
  level : List (ChatCommand η)
  cmd : List Char
  command : ChatCommand η

/-- A handler that was called with a text. -/
structure Call (η : Type) where
  command : ChatCommand η
  handler : η
  /-- The text that it was given. -/
  args : List Char

/-- What `ExecuteCommandInTable` did. -/
structure Execution (η : Type) where
  /-- The commands that were taken, one for a level. -/
  dispatches : List (Dispatch η)
  calls : List (Call η)
  messages : List Message
  result : Bool

/-- What is printed once a handler was called; it says if it succeeded and if it sent an error
message of its own. -/
def answer (help : List Char) (run : Bool×Bool) : List Message :=
  if run.1 then []
  else if run.2 then []
  else if help≠[] then [.help help] else [.LANG_CMD_SYNTAX]

mutual

/-- `ExecuteCommandInTable` on the child commands. The handlers are called by `run`. -/
def executeChildren (security : UInt32) (run : η → List Char → Bool×Bool) :
    ChatCommand η → List Char → Execution η
  | .mk _ _ _ _ children,text => executeFrom security run children children text

/-- The loop of `ExecuteCommandInTable` on the rest of a table. -/
def executeFrom (security : UInt32) (run : η → List Char → Bool×Bool) :
    List (ChatCommand η) → List (ChatCommand η) → List Char → Execution η
  | [],_,_ => ⟨[],[],[],false⟩
  | command::rest,table,oldtext =>
    let cmd := word oldtext
    let text := behind oldtext
    if !hasStringAbbr command.Name cmd then executeFrom security run rest table oldtext
    else if exactMatch (names table) command.Name cmd then
      executeFrom security run rest table oldtext
    else if !command.ChildCommands.isEmpty then
      let child := executeChildren security run command text
      { dispatches := ⟨table,cmd,command⟩::child.dispatches
        calls := child.calls
        messages := child.messages++
          if child.result then []
          else [if text≠[] then .LANG_NO_SUBCMD else .LANG_CMD_SYNTAX,
            .showHelp (names command.ChildCommands) text]
        result := true }
    else
      match command.Handler with
      | none => executeFrom security run rest table oldtext
      | some handler =>
        if !isAvailable security command then executeFrom security run rest table oldtext
        else
          -- a command without a name gets the whole text
          let args := if command.Name≠[] then text else oldtext
          { dispatches := [⟨table,cmd,command⟩]
            calls := [⟨command,handler,args⟩]
            messages := answer command.Help (run handler args)
            result := true }

end

def ExecuteCommandInTable (security : UInt32) (run : η → List Char → Bool×Bool)
    (table : List (ChatCommand η)) (text : List Char) : Execution η :=
  executeFrom security run table table text

mutual

/-- `SetDataForCommandInTable` on the child commands: the command afterwards and what it
returns. -/
def setChildren (security : UInt32) (help : List Char) :
    ChatCommand η → List Char → ChatCommand η×Bool
  | .mk name level handler oldHelp children,text =>
    let child := setDataFrom security help children text
    (.mk name level handler oldHelp child.1,child.2)

/-- `SetDataForCommandInTable`: the table afterwards and what it returns. -/
def setDataFrom (security : UInt32) (help : List Char) :
    List (ChatCommand η) → List Char → List (ChatCommand η)×Bool
  | [],_ => ([],false)
  | command::rest,text =>
    if command.Name≠word text then
      let tail := setDataFrom security help rest text
      (command::tail.1,tail.2)
    else if !command.ChildCommands.isEmpty then
      let child := setChildren security help command (behind text)
      if child.2 then (child.1::rest,true)
      else if behind text≠[] then (child.1::rest,false)
      -- without a "" child command the command itself
      else (child.1.setData security help::rest,true)
    else if behind text≠[] then (command::rest,false)
    else (command.setData security help::rest,true)

end

def SetDataForCommandInTable (table : List (ChatCommand η)) (text : List Char)
    (security : UInt32) (help : List Char) : List (ChatCommand η)×Bool :=
  setDataFrom security help table text

end Projectnelth.ChatCommandModel
