import Telefile.Request
import Telefile.Text.Utf8
import Telefile.Wire.Varint

/-!
# Message bodies

The wire form of requests and responses. Variants carry their index, options a 0 or 1, texts and
sequences their length; fields follow in order, and bytes after the last field are ignored.

* `Request.encode` is total; `Response.encode` refuses a time before the epoch, which has no form;
* `Request.decode`, `Response.decode` read a body.
-/

namespace Telefile

namespace Wire

/-! ## 1. Fields -/

/-- A signed 32-bit field. -/
def int32 (i : Int) : List UInt8 := Varint.encode .word32 (Varint.zigzag i)

/-- A signed 64-bit field. -/
def int64 (i : Int) : List UInt8 := Varint.encode .word64 (Varint.zigzag i)

/-- An unsigned 32-bit field. -/
def nat32 (n : Nat) : List UInt8 := Varint.encode .word32 n

/-- An unsigned 64-bit field. -/
def nat64 (n : Nat) : List UInt8 := Varint.encode .word64 n

/-- A byte string with its length. -/
def blob (b : List UInt8) : List UInt8 := nat64 b.length ++ b

/-- A text field. -/
def text (s : String) : List UInt8 := blob (Utf8.encode s)

/-- An optional field. -/
def option {α : Type} (put : α → List UInt8) : Option α → List UInt8
  | none => [0]
  | some a => 1 :: put a

/-- A sequence with its length. -/
def sequence {α : Type} (put : α → List UInt8) (as : List α) : List UInt8 :=
  nat64 as.length ++ as.flatMap put

/-- Reads an `int32`. -/
def readInt32 : Reader Int := Varint.unzigzag <$> Varint.decode .word32

/-- Reads an `int64`. -/
def readInt64 : Reader Int := Varint.unzigzag <$> Varint.decode .word64

/-- Reads a `nat32`. -/
def readNat32 : Reader Nat := Varint.decode .word32

/-- Reads a `nat64`. -/
def readNat64 : Reader Nat := Varint.decode .word64

/-- Reads a `blob`. -/
def readBlob : Reader (List UInt8) := do
  let n ← readNat64
  Reader.bytes n

/-- Reads a `text`. -/
def readText : Reader String := do
  let b ← readBlob
  match Utf8.decode? b with
  | some s => pure s
  | none => Reader.refuse .badText

/-- Reads an `option`. -/
def readOption {α : Type} (get : Reader α) : Reader (Option α) := do
  match ← Reader.byte with
  | 0 => pure none
  | 1 => some <$> get
  | _ => Reader.refuse .badOption

/-- Reads a `sequence`. -/
def readSequence {α : Type} (get : Reader α) : Reader (List α) := do
  let n ← readNat64
  Reader.many get n

/-! ## 2. Attributes, entries, hierarchies -/

/-- The index of a kind. -/
def kindIndex : FileKind → Nat
  | .file => 0
  | .directory => 1
  | .symlink => 2

/-- A kind field. -/
def kind (k : FileKind) : List UInt8 := nat32 (kindIndex k)

/-- Reads a `kind`. -/
def readKind : Reader FileKind := do
  match ← readNat32 with
  | 0 => pure .file
  | 1 => pure .directory
  | 2 => pure .symlink
  | _ => Reader.refuse .noSuchValue

/-- The bytes of attributes whose time is not before the epoch. -/
def attr (a : FileAttr) : List UInt8 :=
  nat64 a.size ++ kind a.kind ++ nat32 a.perm ++
    (nat64 a.modified.seconds.toNat ++ nat32 a.modified.nanos) ++ nat32 a.links

/-- The nanoseconds of a second. -/
def nanosPerSecond : Nat := 1000000000

/-- Reads a time; nanoseconds of a second and more carry into the seconds, which must then still
fit a signed 64-bit number. -/
def readTime : Reader Timestamp := do
  let s ← readNat64
  let n ← readNat32
  let total := s + n / nanosPerSecond
  if total < 1 <<< 63 then pure ⟨total, n % nanosPerSecond⟩ else Reader.refuse .noSuchValue

/-- Reads an `attr`. -/
def readAttr : Reader FileAttr := do
  let size ← readNat64
  let kind ← readKind
  let perm ← readNat32
  let modified ← readTime
  let links ← readNat32
  pure ⟨size, kind, perm, modified, links⟩

/-- A directory entry. -/
def entry (e : DirEntry) : List UInt8 := text e.name ++ kind e.kind

/-- Reads an `entry`. -/
def readEntry : Reader DirEntry := do
  let name ← readText
  let kind ← readKind
  pure ⟨name, kind⟩

mutual

/-- A hierarchy: the name, the number of children, the children. -/
def tree : DirTree → List UInt8
  | .node n ts => text n ++ nat64 ts.length ++ trees ts

/-- Several hierarchies in a row. -/
def trees : List DirTree → List UInt8
  | [] => []
  | t :: ts => tree t ++ trees ts

end

/-- Reads a `tree` nested at most `depth` deep. -/
def readTreeWithin : Nat → Reader DirTree
  | 0 => Reader.refuse .endOfBody
  | depth + 1 => do
    let name ← readText
    let subdirs ← readSequence (readTreeWithin depth)
    pure (.node name subdirs)

/-- Reads a `tree`. A level takes two bytes at least, so no tree in `b` is nested deeper than `b`
is long. -/
def readTree : Reader DirTree := fun b => readTreeWithin (b.length + 1) b

end Wire

/-! ## 3. Requests -/

namespace Request

/-- The body of a request. -/
def encode : Request → List UInt8
  | openPath p m => 0 :: (Wire.option Wire.text p ++ Wire.nat32 m)
  | close fd => 1 :: Wire.int32 fd
  | write fd d => 2 :: (Wire.int32 fd ++ Wire.blob d)
  | read fd c => 3 :: (Wire.int32 fd ++ Wire.option Wire.nat64 c)
  | seek fd o w => 4 :: (Wire.int32 fd ++ Wire.int64 o ++ Wire.nat32 w)
  | unlink p => 5 :: Wire.option Wire.text p
  | stat p => 6 :: Wire.option Wire.text p
  | listDir fd n b => 7 :: (Wire.int32 fd ++ Wire.nat64 n ++ Wire.nat64 b)
  | dirTree p => 8 :: Wire.option Wire.text p

/-- Reads the fields of a request by its index. -/
def reader : Reader Request := do
  match ← Wire.readNat32 with
  | 0 => do
    let p ← Wire.readOption Wire.readText
    let m ← Wire.readNat32
    pure (openPath p m)
  | 1 => close <$> Wire.readInt32
  | 2 => do
    let fd ← Wire.readInt32
    let d ← Wire.readBlob
    pure (write fd d)
  | 3 => do
    let fd ← Wire.readInt32
    let c ← Wire.readOption Wire.readNat64
    pure (read fd c)
  | 4 => do
    let fd ← Wire.readInt32
    let o ← Wire.readInt64
    let w ← Wire.readNat32
    pure (seek fd o w)
  | 5 => unlink <$> Wire.readOption Wire.readText
  | 6 => stat <$> Wire.readOption Wire.readText
  | 7 => do
    let fd ← Wire.readInt32
    let n ← Wire.readNat64
    let b ← Wire.readNat64
    pure (listDir fd n b)
  | 8 => dirTree <$> Wire.readOption Wire.readText
  | _ => Reader.refuse .noSuchValue

/-- The request a body starts with. -/
def decode (body : List UInt8) : Except DecodeError Request := Prod.fst <$> reader body

end Request

/-! ## 4. Responses -/

/-- Why a response has no body. -/
inductive EncodeError
  /-- It holds a time before the epoch. -/
  | timeBeforeEpoch
  deriving DecidableEq, Repr

/-- The wording of the refusal. -/
def EncodeError.message : EncodeError → String
  | .timeBeforeEpoch => "encode failed: Serde Serialization Error"

namespace Response

/-- The body of a response. -/
def encode : Response → Except EncodeError (List UInt8)
  | status r => .ok (0 :: Wire.int64 r)
  | data r b => .ok (1 :: (Wire.int64 r ++ Wire.blob b))
  | attr r a =>
    if a.any fun x => x.modified.seconds < 0 then .error .timeBeforeEpoch
    else .ok (2 :: (Wire.int64 r ++ Wire.option Wire.attr a))
  | entries r b es => .ok (3 :: (Wire.int64 r ++ Wire.nat64 b ++ Wire.sequence Wire.entry es))
  | tree r t => .ok (4 :: (Wire.int64 r ++ Wire.option Wire.tree t))

/-- Reads the fields of a response by its index. -/
def reader : Reader Response := do
  match ← Wire.readNat32 with
  | 0 => status <$> Wire.readInt64
  | 1 => do
    let r ← Wire.readInt64
    let b ← Wire.readBlob
    pure (data r b)
  | 2 => do
    let r ← Wire.readInt64
    let a ← Wire.readOption Wire.readAttr
    pure (attr r a)
  | 3 => do
    let r ← Wire.readInt64
    let b ← Wire.readNat64
    let es ← Wire.readSequence Wire.readEntry
    pure (entries r b es)
  | 4 => do
    let r ← Wire.readInt64
    let t ← Wire.readOption Wire.readTree
    pure (tree r t)
  | _ => Reader.refuse .noSuchValue

/-- The response a body starts with. -/
def decode (body : List UInt8) : Except DecodeError Response := Prod.fst <$> reader body

end Response

end Telefile
