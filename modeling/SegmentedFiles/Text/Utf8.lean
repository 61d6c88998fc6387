/-! Reading UTF-8 that may be damaged. Each longest run of bytes that could begin a character, but does
not become one, is read as a replacement character. Where that is not wanted, it can be told where the
damage is. -/

namespace SegmentedFiles.Utf8

/-- What stands for bytes that are no character. -/
def replacement : Char := '\ufffd'

/-- Between two characters, or inside of one: the bits read so far, how many bytes are still to come,
and in which range the next of them lies. -/
inductive State where
  | between
  | inside (bits more : Nat) (low high : UInt8)

def first (b : UInt8) : List Char × State :=
  let n := b.toNat
  if n < 0x80 then ([Char.ofNat n], .between)
  else if n < 0xc2 then ([replacement], .between)
  else if n < 0xe0 then ([], .inside (n % 0x20) 1 0x80 0xbf)
  else if n = 0xe0 then ([], .inside 0 2 0xa0 0xbf)
  else if n = 0xed then ([], .inside 0xd 2 0x80 0x9f)
  else if n < 0xf0 then ([], .inside (n % 0x10) 2 0x80 0xbf)
  else if n = 0xf0 then ([], .inside 0 3 0x90 0xbf)
  else if n < 0xf4 then ([], .inside (n % 8) 3 0x80 0xbf)
  else if n = 0xf4 then ([], .inside 4 3 0x80 0x8f)
  else ([replacement], .between)

/-- Read one more byte. One that does not go on with a character begins the next. -/
def step (state : State) (b : UInt8) : List Char × State :=
  match state with
  | .between => first b
  | .inside bits more low high =>
    if low ≤ b && b ≤ high then
      let bits := 64 * bits + b.toNat % 64
      if more = 1 then ([Char.ofNat bits], .between) else ([], .inside bits (more - 1) 0x80 0xbf)
    else
      let (chars, state) := first b
      (replacement :: chars, state)

/-- The characters that bytes stand for; those read so far are given last first. -/
def read (state : State) (done : List Char) : List UInt8 → List Char
  | [] =>
    match state with
    | .between => done.reverse
    | .inside _ _ _ _ => (replacement :: done).reverse
  | b :: rest =>
    let (chars, state) := step state b
    read state (chars.reverse ++ done) rest

def decode (bytes : List UInt8) : String := String.ofList (read .between [] bytes)

/-- Where bytes stop being text. -/
structure Damage where
  /-- The number of bytes before. -/
  sound : Nat
  /-- The number of bytes that do not become a character; none where the bytes end inside of one. -/
  broken : Option Nat
  deriving DecidableEq, Repr

def Damage.message (damage : Damage) : String :=
  match damage.broken with
  | some n =>
    "invalid utf-8 sequence of " ++ n.repr ++ " bytes from index " ++ damage.sound.repr
  | none => "incomplete utf-8 byte sequence from index " ++ damage.sound.repr

/-- The first damage from a state on. The character that is being read begins at the byte with the
number `start`, and `offset` bytes have been read. -/
def damageFrom (state : State) (start offset : Nat) : List UInt8 → Option Damage
  | [] =>
    match state with
    | .between => none
    | .inside _ _ _ _ => some ⟨start, none⟩
  | b :: rest =>
    match state with
    | .inside _ _ low high =>
      if low ≤ b && b ≤ high then damageFrom (step state b).2 start (offset + 1) rest
      else some ⟨start, some (offset - start)⟩
    | .between =>
      match first b with
      | ([], state) => damageFrom state offset (offset + 1) rest
      | (_ :: _, _) =>
        if b < 0x80 then damageFrom .between (offset + 1) (offset + 1) rest else some ⟨offset, some 1⟩

def damage? (bytes : List UInt8) : Option Damage := damageFrom .between 0 0 bytes

end SegmentedFiles.Utf8
