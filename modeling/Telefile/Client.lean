import Telefile.Frame
import Telefile.Text.Quoted
import Telefile.Wire.Message

/-!
# The client

A client sends one request at a time and takes the next frame as its response. Results come back
as the server reports them; only failures of the transport are errors.

* `Call` is a method of the client: the request it sends, and what it makes of the response;
* `Client.send`, `Client.hear` and `Client.next` are the three moves of a call, `Client.perform`
  makes them against a peer.
-/

namespace Telefile

/-- Why a call fails. -/
inductive ClientError
  /-- A frame over the limit in either direction, or an incomplete one at the end. -/
  | transport (e : FrameError)
  /-- The response does not decode. -/
  | protocol (e : DecodeError)
  | disconnected
  /-- A response of the wrong shape. -/
  | unexpected (op : String) (response : Response)

/-! ## 1. Responses in messages -/

namespace Response

/-- A list between brackets. -/
def showList {α : Type} (form : α → String) (as : List α) : String :=
  "[" ++ ", ".intercalate (as.map form) ++ "]"

/-- A record: its name, and its fields between braces. -/
def showRecord (name : String) (fields : List (String × String)) : String :=
  name ++ " \x7b " ++ ", ".intercalate (fields.map fun f => s!"{f.1}: {f.2}") ++ " \x7d"

/-- The name of a kind. -/
def showKind : FileKind → String
  | .file => "File"
  | .directory => "Directory"
  | .symlink => "Symlink"

/-- Attributes in a message. -/
def showAttr (a : FileAttr) : String :=
  showRecord "FileAttr"
    [("size", toString a.size), ("kind", showKind a.kind), ("perm", toString a.perm),
      ("mtime", showRecord "SystemTime"
        [("tv_sec", toString a.modified.seconds), ("tv_nsec", toString a.modified.nanos)]),
      ("nlink", toString a.links)]

/-- An entry in a message. -/
def showEntry (e : DirEntry) : String :=
  showRecord "DirEntry" [("name", Quoted.text e.name), ("kind", showKind e.kind)]

mutual

/-- A hierarchy in a message. -/
def showTree : DirTree → String
  | .node n ts =>
    showRecord "DirTree"
      [("name", Quoted.text n), ("subdirs", "[" ++ ", ".intercalate (showTrees ts) ++ "]")]

/-- Several hierarchies in a message. -/
def showTrees : List DirTree → List String
  | [] => []
  | t :: ts => showTree t :: showTrees ts

end

/-- A response in a message. -/
def describe : Response → String
  | status r => s!"Status({r})"
  | data r b =>
    showRecord "Data" [("result", toString r), ("bytes", showList (fun x => toString x.toNat) b)]
  | attr r a =>
    showRecord "Attr" [("result", toString r), ("attr", Quoted.optional showAttr a)]
  | entries r b es =>
    showRecord "Entries"
      [("result", toString r), ("base", toString b), ("entries", showList showEntry es)]
  | tree r t =>
    showRecord "Tree" [("result", toString r), ("tree", Quoted.optional showTree t)]

end Response

/-- The wording of a failed call. -/
def ClientError.message : ClientError → String
  | .transport e => s!"I/O error: {e.message}"
  | .protocol e => s!"protocol error: {e.message}"
  | .disconnected => "server closed the connection"
  | .unexpected op response => s!"unexpected response to {op}: {response.describe}"

/-! ## 2. Methods -/

/-- A method: the request it sends, and what it makes of the response. -/
structure Call (α : Type) where
  request : Request
  take : Response → Except ClientError α

namespace Call

/-- A result code as 32 bits hold it. -/
def narrow (i : Int) : Int := i.bmod (1 <<< 32)

/-- The code of a status. -/
def takeStatus (op : String) : Response → Except ClientError Int
  | .status r => .ok r
  | other => .error (.unexpected op other)

/-- The narrowed code of a status. -/
def takeNarrow (op : String) (response : Response) : Except ClientError Int :=
  narrow <$> takeStatus op response

/-- A request with its response as it comes. -/
def raw (q : Request) : Call Response := ⟨q, .ok⟩

/-- Opens a path under the mode with a number. -/
def openRaw (path : Option String) (mode : Nat) : Call Int :=
  ⟨.openPath path mode, takeNarrow "open"⟩

/-- Opens a path. -/
def openPath (path : Option String) (mode : OpenMode) : Call Int := openRaw path mode.toRaw

/-- Closes a descriptor. -/
def close (fd : Fd) : Call Int := ⟨.close fd, takeNarrow "close"⟩

/-- Writes at the cursor. -/
def write (fd : Fd) (data : List UInt8) : Call Int := ⟨.write fd data, takeStatus "write"⟩

/-- Reads into a buffer, if there is one. -/
def readInto (fd : Fd) (capacity : Option Nat) : Call (Int × List UInt8) :=
  ⟨.read fd capacity, fun
    | .data r b => .ok (r, b)
    | other => .error (.unexpected "read" other)⟩

/-- Reads at most `capacity` bytes. -/
def read (fd : Fd) (capacity : Nat) : Call (Int × List UInt8) := readInto fd (some capacity)

/-- Moves the cursor from the origin with a number. -/
def seekRaw (fd : Fd) (offset : Int) (whence : Nat) : Call Int :=
  ⟨.seek fd offset whence, takeStatus "lseek"⟩

/-- Moves the cursor. -/
def seek (fd : Fd) (offset : Int) (whence : Whence) : Call Int := seekRaw fd offset whence.toRaw

/-- Removes a file or a link. -/
def unlink (path : Option String) : Call Int := ⟨.unlink path, takeNarrow "unlink"⟩

/-- The attributes of an entry. -/
def stat (path : Option String) : Call (Int × Option FileAttr) :=
  ⟨.stat path, fun
    | .attr r a => .ok (narrow r, a)
    | other => .error (.unexpected "stat" other)⟩

/-- A page of a directory. -/
def listDir (fd : Fd) (nbytes base : Nat) : Call (Int × Nat × List DirEntry) :=
  ⟨.listDir fd nbytes base, fun
    | .entries r b es => .ok (r, b, es)
    | other => .error (.unexpected "getdirentries" other)⟩

/-- The directories below a path. -/
def dirTree (path : Option String) : Call (Int × Option DirTree) :=
  ⟨.dirTree path, fun
    | .tree r t => .ok (narrow r, t)
    | other => .error (.unexpected "getdirtree" other)⟩

end Call

/-! ## 3. The moves of a call -/

/-- A client's end of a connection: its limit, the frame that is coming in, what has come and is
not yet taken, and whether the server has closed its end. -/
structure Client where
  limit : Nat
  incoming : FrameState
  pending : List FrameEvent
  closed : Bool
  deriving DecidableEq, Repr

namespace Client

/-- A new connection with a limit for frames. -/
def connect (limit : Nat) : Client := ⟨limit, .fresh, [], false⟩

/-- The bytes of a request's frame; a request over the limit is not sent. -/
def send (c : Client) (q : Request) : Except ClientError (List UInt8) :=
  (Frame.encode c.limit q.encode).mapError .transport

/-- Bytes arrive. -/
def hear (c : Client) (chunk : List UInt8) : Client :=
  let (incoming, events) := c.incoming.feed c.limit chunk
  { c with incoming, pending := c.pending ++ events }

/-- The server closes its end. -/
def lose (c : Client) : Client := { c with closed := true }

/-- Takes the next frame as a response. With none left the stream is at its end. -/
def next (c : Client) : Except ClientError Response × Client :=
  match c.pending with
  | .frame body :: rest => ((Response.decode body).mapError .protocol, { c with pending := rest })
  | .oversized :: rest => (.error (.transport .lengthTooBig), { c with pending := rest })
  | [] =>
    match c.incoming.finish with
    | .ok () => (.error .disconnected, c)
    | .error e => (.error (.transport e), c)

/-- A call on a connection: `deliver` says what has arrived, and whether the server has closed,
once the frame of the request is sent. -/
def perform {α : Type} (c : Client) (m : Call α) (deliver : List UInt8 → List UInt8 × Bool) :
    Except ClientError α × Client :=
  match c.send m.request with
  | .error e => (.error e, c)
  | .ok frame =>
    let (chunk, closed) := deliver frame
    let c := c.hear chunk
    let c := if closed then c.lose else c
    let (response, c) := c.next
    (response.bind m.take, c)

end Client

end Telefile
