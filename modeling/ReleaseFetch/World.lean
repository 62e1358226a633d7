/-
**Everything a run can see and change.**

A run reads and changes a disk, sends requests and starts commands, prints and keeps a journal.
What the network and the commands will answer is not the run's to decide, so the world holds their
answers in advance, in the order in which they will be given.  A session is a step of a run: it
ends with a value or a failure, and what it did to the world stays done in either case.

Main definitions:

* `ReleaseFetch.Request`, `ReleaseFetch.Reply`, `ReleaseFetch.Exchange` — requests and their
  answers;
* `ReleaseFetch.ShellReply` — what a command will do;
* `ReleaseFetch.World`, `ReleaseFetch.Session`;
* `ReleaseFetch.Session.log`, `ReleaseFetch.Session.look`, `ReleaseFetch.Session.change`,
  `ReleaseFetch.Session.send`, `ReleaseFetch.Session.close`, `ReleaseFetch.Session.execute` — the
  primitive steps;
* `ReleaseFetch.Session.attempt` — a step whose failure is a value.
-/

import ReleaseFetch.Disk.Access
import ReleaseFetch.Journal
import ReleaseFetch.Number.Seconds
import ReleaseFetch.Text.Lowercase

set_option autoImplicit false

namespace ReleaseFetch

/-! ### Requests -/

/-- Header names with their values, in order. -/
abbrev Headers := List (String × String)

/-- A request as it is sent. -/
structure Request where
  url : String
  headers : Headers
  proxy : Option String
  timeout : Option Seconds
  streamed : Bool
  followsRedirects : Bool
  trustsEnvironment : Bool
  deriving DecidableEq

/-- A part of a streamed body: bytes, or the failure that ends it. -/
inductive Chunk where
  | bytes (bytes : List UInt8)
  | failure (f : Failure)
  deriving DecidableEq

/-- What a server says. -/
structure Reply where
  status : Int
  headers : Headers
  text : String
  chunks : List Chunk
  deriving DecidableEq

/-- What a request meets: a reply, or a failure. -/
inductive Answer where
  | reply (r : Reply)
  | failure (f : Failure)
  deriving DecidableEq

/-- A request that was sent, and what became of its response. -/
structure Exchange where
  request : Request
  answered : Bool
  closed : Bool
  chunkSize : Option Nat
  deriving DecidableEq

/-- A request that was just sent. -/
def Exchange.opened (r : Request) (answered : Bool) : Exchange := ⟨r, answered, false, none⟩

/-- A response that is being read: what the server says, and the number of its exchange. -/
structure Response where
  reply : Reply
  exchange : Nat

/-! ### Commands -/

/-- An entry that a command leaves on the disk. -/
structure Deposit where
  path : Path
  entry : Entry
  deriving DecidableEq

/-- What a command will do: write, and then end with a code, or fail to run. -/
structure ShellReply where
  writes : List Deposit
  code : Int
  stderr : String
  failure : Option Failure
  deriving DecidableEq

/-! ### The world -/

/-- What a run can see and change. -/
structure World where
  disk : Disk
  answers : List Answer
  shellReplies : List ShellReply
  exchanges : List Exchange
  commands : List (List String)
  journal : List Record
  printed : String

/-- A step of a run. -/
abbrev Session (α : Type) := ExceptT Failure (StateM World) α

namespace Session

/-- The step as a function on worlds. -/
def perform {α : Type} (x : Session α) (w : World) : Except Failure α × World := x.run.run w

/-- Fails with a problem of the tool. -/
def fail {α : Type} (p : Problem) : Session α := throw (.problem p)

/-- A step whose failure is a value. -/
def attempt {α : Type} (x : Session α) : Session (Except Failure α) :=
  ExceptT.mk fun w =>
    let (r, w') := x.perform w
    (.ok r, w')

/-- The value of a result, or its failure. -/
def give {α : Type} : Except Failure α → Session α
  | .ok a => pure a
  | .error f => throw f

/-! ### Journal and output -/

/-- Adds a record to the journal. -/
def log (level : Level) (source : Source) (text : String) : Session Unit :=
  modify fun w => { w with journal := w.journal ++ [⟨level, source, text, false⟩] }

/-- Adds a record with the details of a failure. -/
def logDetails (source : Source) (text : String) : Session Unit :=
  modify fun w => { w with journal := w.journal ++ [⟨.error, source, text, true⟩] }

/-- Prints a line. -/
def print (line : String) : Session Unit :=
  modify fun w => { w with printed := w.printed ++ line ++ "\n" }

/-! ### Disk -/

/-- Looks at the disk. -/
def look {α : Type} (f : Disk → Except Failure α) : Session α := do
  give (f (← get).disk)

/-- Changes the disk. -/
def change (f : Disk → Except Failure Disk) : Session Unit := do
  let d ← give (f (← get).disk)
  modify fun w => { w with disk := d }

/-! ### Network -/

/-- What a request meets when no answer is left. -/
def noAnswer : Failure := .network .connection "no response scripted"

/-- Sends a request, and takes the next answer. -/
def send (r : Request) : Session Response := do
  let w : World ← get
  match w.answers with
  | [] =>
    set { w with exchanges := w.exchanges ++ [Exchange.opened r false] }
    throw noAnswer
  | .failure f :: rest =>
    set { w with answers := rest, exchanges := w.exchanges ++ [Exchange.opened r false] }
    throw f
  | .reply reply :: rest =>
    set { w with answers := rest, exchanges := w.exchanges ++ [Exchange.opened r true] }
    return ⟨reply, w.exchanges.length⟩

/-- Closes a response. -/
def close (r : Response) : Session Unit :=
  modify fun w =>
    { w with exchanges := w.exchanges.modify r.exchange fun x => { x with closed := true } }

/-- Starts to read the body of a response in parts of a given size. -/
def startReading (r : Response) (size : Nat) : Session Unit :=
  modify fun w =>
    { w with exchanges := w.exchanges.modify r.exchange fun x => { x with chunkSize := some size } }

/-! ### Commands -/

/-- What starting a command meets when no answer is left. -/
def noCommand : Failure := .system ⟨.noEntry, ["powershell"]⟩

/-- The directories on the way to a path, outermost first. -/
def waysTo (p : Path) : List Path :=
  (List.range p.names.length).map fun n => ⟨p.root, p.names.take n⟩

/-- Makes a directory where nothing is; anything else stays as it is. -/
def makeWay (d : Disk) (p : Path) : Disk :=
  match d.makeDirectory p with
  | .ok e => e
  | .error _ => d

/-- Puts an entry on the disk, with the directories on its way.  A file is written through a link;
a directory that is there stays. -/
def deposit (d : Disk) (x : Deposit) : Disk :=
  let e := (waysTo x.path).foldl makeWay d
  match x.entry with
  | .directory => makeWay e x.path
  | .file .. =>
    match e.locate true x.path with
    | .ok place => if place.entry == some .directory then e else e.put place.location x.entry
    | .error _ => e
  | .link _ =>
    match e.locate false x.path with
    | .ok place => if place.entry.isNone then e.put place.location x.entry else e
    | .error _ => e

/-- Runs a command, and takes its next answer: its code and what it said. -/
def execute (command : List String) : Session (Int × String) := do
  let w : World ← get
  let commands := w.commands ++ [command]
  match w.shellReplies with
  | [] =>
    set { w with commands := commands }
    throw noCommand
  | reply :: rest =>
    let disk := reply.writes.foldl deposit w.disk
    set { w with commands := commands, shellReplies := rest, disk := disk }
    match reply.failure with
    | some f => throw f
    | none => return (reply.code, reply.stderr)

end Session

end ReleaseFetch
