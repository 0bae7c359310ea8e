import LosslessMusic.Codec.Percent
import Mathlib.Data.List.TakeWhile

/-!
# IPv6 addresses as texts

`Ipv6Addr::from_str`, as far as which texts it accepts: up to eight groups, one `::` for at
least one group, and an IPv4 address in the place of two groups at the end. A reader returns
what stands behind what it reads.
-/

namespace LosslessMusic.Network

abbrev Bytes := List UInt8

namespace Address

/-- The byte of a character of the source. -/
def code (char : Char) : UInt8 :=
  UInt8.ofNat char.toNat

/-- A hexadecimal digit. -/
def isHexDigit (byte : UInt8) : Bool :=
  (Codec.Percent.digit? byte).isSome

/-- A decimal digit. -/
def isDigit (byte : UInt8) : Bool :=
  48 ≤ byte && byte ≤ 57

/-- `read_number(16, Some(4), true)`. -/
def readGroup (text : Bytes) : Option Bytes :=
  let digits := text.takeWhile isHexDigit
  if digits.length = 0 ∨ 4 < digits.length then none
  else some (text.dropWhile isHexDigit)

/-- `read_number(10, Some(3), false)`: no octal number, and at most 255. -/
def readOctet (text : Bytes) : Option Bytes :=
  let digits := text.takeWhile isDigit
  if digits.length = 0 ∨ 3 < digits.length then none
  else if digits.head? = some (code '0') ∧ 1 < digits.length then none
  else if 255 < digits.foldl (fun value digit => value * 10 + (digit.toNat - 48)) 0 then none
  else some (text.dropWhile isDigit)

/-- `read_given_char`. -/
def readChar (char : UInt8) : Bytes → Option Bytes
  | byte :: rest => if byte = char then some rest else none
  | [] => none

/-- `read_separator`: the separator stands before all but the first. -/
def readSeparator (separator : UInt8) (index : Nat) (inner : Bytes → Option Bytes)
    (text : Bytes) : Option Bytes :=
  if 0 < index then (readChar separator text).bind inner else inner text

/-- `read_ipv4_addr`. -/
def readIpv4 (text : Bytes) : Option Bytes :=
  [0, 1, 2, 3].foldlM (fun text index => readSeparator (code '.') index readOctet text) text

/-- `read_groups`: how many groups are read, whether an IPv4 address ends them, and the text
behind them. -/
def readGroups : Nat → Nat → Bytes → Nat × Bool × Bytes
  | 0, index, text => (index, false, text)
  | left + 1, index, text =>
    match if 0 < left then readSeparator (code ':') index readIpv4 text else none with
    | some rest => (index + 2, true, rest)
    | none =>
      match readSeparator (code ':') index readGroup text with
      | some rest => readGroups left (index + 1) rest
      | none => (index, false, text)

/-- `str::parse::<Ipv6Addr>` accepts the text. -/
def isIpv6 (text : Bytes) : Bool :=
  let (size, ipv4, rest) := readGroups 8 0 text
  if size = 8 then rest.isEmpty
  else if ipv4 then false
  else
    match (readChar (code ':') rest).bind (readChar (code ':')) with
    | some rest => (readGroups (8 - (size + 1)) 0 rest).2.2.isEmpty
    | none => false

/-! ## The bytes of an address -/

/-- A byte that may stand in an address. -/
def isAddressByte (byte : UInt8) : Bool :=
  isHexDigit byte || byte == code ':' || byte == code '.'

/-- Reading the text up to the rest went over bytes of an address only. -/
def Reads (text rest : Bytes) : Prop :=
  ∃ used, text = used ++ rest ∧ ∀ byte ∈ used, isAddressByte byte

theorem Reads.refl (text : Bytes) : Reads text text :=
  ⟨[], rfl, fun _ member => absurd member List.not_mem_nil⟩

variable {text rest : Bytes}

theorem Reads.trans {middle : Bytes} (first : Reads text middle)
    (second : Reads middle rest) : Reads text rest := by
  obtain ⟨front, sameFront, allFront⟩ := first
  obtain ⟨back, sameBack, allBack⟩ := second
  refine ⟨front ++ back, by rw [sameFront, sameBack, List.append_assoc], ?_⟩
  intro byte member
  exact (List.mem_append.mp member).elim (allFront byte) (allBack byte)

theorem isHexDigit_of_isDigit : ∀ byte : UInt8, isDigit byte → isHexDigit byte :=
  Codec.Percent.forall_byte (by decide +kernel)

theorem reads_dropWhile {digit : UInt8 → Bool} (all : ∀ byte, digit byte → isHexDigit byte)
    (text : Bytes) : Reads text (text.dropWhile digit) := by
  refine ⟨text.takeWhile digit, List.takeWhile_append_dropWhile.symm, ?_⟩
  intro byte member
  have hex := all byte (List.mem_takeWhile_imp member)
  rw [isAddressByte, hex, Bool.true_or, Bool.true_or]

theorem reads_readGroup (read : readGroup text = some rest) : Reads text rest := by
  unfold readGroup at read
  dsimp only at read
  split at read
  next => cases read
  next =>
    rw [← Option.some.inj read]
    exact reads_dropWhile (fun _ digit => digit) text

theorem reads_readOctet (read : readOctet text = some rest) : Reads text rest := by
  unfold readOctet at read
  dsimp only at read
  repeat' split at read
  all_goals cases read
  exact reads_dropWhile isHexDigit_of_isDigit text

theorem readChar_eq_some {char : UInt8}
    (read : readChar char text = some rest) : text = char :: rest := by
  cases text with
  | nil => cases read
  | cons byte later =>
    rw [readChar] at read
    split at read
    next same => rw [same, Option.some.inj read]
    next => cases read

theorem reads_readChar {char : UInt8} (allowed : isAddressByte char)
    (read : readChar char text = some rest) : Reads text rest := by
  refine ⟨[char], readChar_eq_some read, ?_⟩
  intro byte member
  rw [List.mem_singleton.mp member]
  exact allowed

theorem reads_readSeparator {separator : UInt8} (allowed : isAddressByte separator)
    {inner : Bytes → Option Bytes} (innerReads : ∀ {text rest}, inner text = some rest →
      Reads text rest)
    {index : Nat} (read : readSeparator separator index inner text = some rest) :
    Reads text rest := by
  unfold readSeparator at read
  split at read
  next =>
    obtain ⟨middle, separated, later⟩ := Option.bind_eq_some_iff.mp read
    exact (reads_readChar allowed separated).trans (innerReads later)
  next => exact innerReads read

theorem reads_readIpv4 (read : readIpv4 text = some rest) : Reads text rest := by
  have each : ∀ (indices : List Nat) {text rest : Bytes},
      indices.foldlM (fun text index => readSeparator (code '.') index readOctet text) text =
        some rest → Reads text rest := by
    intro indices
    induction indices with
    | nil =>
      intro text rest read
      cases read
      exact .refl text
    | cons index later ih =>
      intro text rest read
      rw [List.foldlM_cons] at read
      obtain ⟨middle, first, others⟩ := Option.bind_eq_some_iff.mp read
      exact (reads_readSeparator (by decide) reads_readOctet first).trans (ih others)
  exact each _ read

theorem reads_readGroups (left index : Nat) (text : Bytes) :
    Reads text (readGroups left index text).2.2 := by
  induction left generalizing index text with
  | zero => exact .refl text
  | succ left ih =>
    rw [readGroups]
    split
    next rest found =>
      split at found
      next => exact reads_readSeparator (by decide) reads_readIpv4 found
      next => cases found
    next =>
      split
      next rest found =>
        exact (reads_readSeparator (by decide) reads_readGroup found).trans (ih (index + 1) rest)
      next => exact .refl text

theorem colon_of_readGroups {left index : Nat} (behind : 0 < index)
    (more : index < (readGroups left index text).1) : code ':' ∈ text := by
  have separated : ∀ {inner : Bytes → Option Bytes} {rest : Bytes},
      readSeparator (code ':') index inner text = some rest → code ':' ∈ text := by
    intro inner rest read
    rw [readSeparator, if_pos behind] at read
    obtain ⟨middle, first, _⟩ := Option.bind_eq_some_iff.mp read
    rw [readChar_eq_some first]
    exact List.mem_cons_self
  cases left with
  | zero => exact absurd more (Nat.lt_irrefl index)
  | succ left =>
    rw [readGroups] at more
    split at more
    next rest found =>
      split at found
      next => exact separated found
      next => cases found
    next =>
      split at more
      next rest found => exact separated found
      next => exact absurd more (Nat.lt_irrefl index)

theorem Reads.mem_of_mem (reads : Reads text rest) {byte : UInt8}
    (member : byte ∈ rest) : byte ∈ text := by
  obtain ⟨used, same, _⟩ := reads
  rw [same]
  exact List.mem_append_right used member

theorem colon_of_eight (eight : (readGroups 8 0 text).1 = 8) : code ':' ∈ text := by
  rw [readGroups] at eight
  split at eight
  next => cases eight
  next =>
    split at eight
    next rest found =>
      have reads : Reads text rest := reads_readSeparator (by decide) reads_readGroup found
      exact reads.mem_of_mem (colon_of_readGroups Nat.one_pos (by rw [eight]; decide))
    next => cases eight

theorem colon_of_isIpv6 (address : isIpv6 text) : code ':' ∈ text := by
  unfold isIpv6 at address
  dsimp only at address
  split at address
  next eight => exact colon_of_eight eight
  next =>
    split at address
    next => cases address
    next =>
      split at address
      next rest found =>
        obtain ⟨middle, first, _⟩ := Option.bind_eq_some_iff.mp found
        refine (reads_readGroups 8 0 text).mem_of_mem ?_
        rw [readChar_eq_some first]
        exact List.mem_cons_self
      next => cases address

theorem Reads.all (reads : Reads text []) : ∀ byte ∈ text, isAddressByte byte := by
  obtain ⟨used, same, all⟩ := reads
  rw [same, List.append_nil]
  exact all

theorem all_of_isIpv6 (address : isIpv6 text) : ∀ byte ∈ text, isAddressByte byte := by
  have first := reads_readGroups 8 0 text
  unfold isIpv6 at address
  dsimp only at address
  split at address
  next =>
    rw [List.isEmpty_iff.mp address] at first
    exact first.all
  next =>
    split at address
    next => cases address
    next =>
      split at address
      next rest found =>
        obtain ⟨middle, one, two⟩ := Option.bind_eq_some_iff.mp found
        have colons := (reads_readChar (by decide) one).trans (reads_readChar (by decide) two)
        have tail := reads_readGroups (8 - ((readGroups 8 0 text).1 + 1)) 0 rest
        rw [List.isEmpty_iff.mp address] at tail
        exact ((first.trans colons).trans tail).all
      next => cases address

end Address
end LosslessMusic.Network
