import Redumper.Sector

/-!
# Channel Q, modelled from the spec

`subcode_extract_channel`, `ChannelQ::Valid` and `BCDMSF_to_LBA` are not in `src/`. The
engine's results take the reading of Q as a parameter (`QDecoder`); this module gives the
reading the spec describes, so that the engine can be run on concrete subcode.

"Subcode is 96 bytes of eight interleaved 12-byte planes P..W": Q is bit 6 of each byte,
eight bytes to a Q byte, most significant bit first. "`Q.valid` = CRC-16/GSM over the first
10 bytes equals the stored big-endian CRC." Q carries `control|adr`, then for `adr` 1
`{tno, index, msf, zero, a_msf, crc}`. MSF 00:00:00 is LBA −150, and minutes 90 to 99 count
back from 00:00:00, so that 90:00:00 is `LBA_START`.
-/

namespace Redumper.ChannelQ

/-- Modelled from the spec: `subcode_extract_channel(.., Subchannel::Q)`. -/
def extractQ (sub : Subcode) (k : Fin 12) : UInt8 :=
  (List.finRange 8).foldl
    (fun acc b => if sub ⟨8 * k.val + b.val, by show 8 * k.val + b.val < 96; omega⟩ &&& 0x40 = 0 then acc
      else acc ||| ((0x80 : UInt8) >>> b.val.toUInt8))
    0

/-- Modelled from the spec: one byte of CRC-16/GSM (polynomial `0x1021`, MSB first). -/
def crc16GsmByte (crc : UInt16) (byte : UInt8) : UInt16 :=
  (List.range 8).foldl
    (fun c _ => if c &&& 0x8000 = 0 then c <<< 1 else (c <<< 1) ^^^ 0x1021)
    (crc ^^^ (byte.toUInt16 <<< 8))

/-- Modelled from the spec: CRC-16/GSM, initial value `0`, final XOR `0xFFFF`. -/
def crc16Gsm (bytes : List UInt8) : UInt16 := bytes.foldl crc16GsmByte 0 ^^^ 0xFFFF

set_option maxRecDepth 4000 in
/-- The catalogue's check value of CRC-16/GSM. -/
example : crc16Gsm [0x31, 0x32, 0x33, 0x34, 0x35, 0x36, 0x37, 0x38, 0x39] = 0xCE3C := by decide

/-- Modelled from the spec: `ChannelQ::Valid`. -/
def valid (sub : Subcode) : Bool :=
  let q := extractQ sub
  crc16Gsm ((List.finRange 10).map fun k => q ⟨k.val, by omega⟩) =
    ((q 10).toUInt16 <<< 8 ||| (q 11).toUInt16)

/-- A BCD byte. -/
def bcdToBin (b : UInt8) : Int := ((b >>> 4).toNat * 10 + (b &&& 0x0F).toNat : Nat)

/-- Modelled from the spec: `BCDMSF_to_LBA`. -/
def bcdmsfToLba (m s f : UInt8) : Int :=
  let lba := (bcdToBin m * 60 + bcdToBin s) * 75 + bcdToBin f + MSF_LBA_SHIFT
  if 90 ≤ bcdToBin m then lba - 100 * 60 * 75 else lba

/-- The reading of Q the spec describes. -/
def decoder : QDecoder where
  valid := valid
  controlAdr sub := extractQ sub 0
  tno sub := extractQ sub 1
  aLba sub := bcdmsfToLba (extractQ sub 7) (extractQ sub 8) (extractQ sub 9)

/-- The subcode whose channel Q is `q` and whose other channels are zero. -/
def ofQ (q : Fin 12 → UInt8) : Subcode := fun i =>
  if (q ⟨i.val / 8, by have h : i.val < 96 := i.isLt; omega⟩ >>> (7 - i.val % 8).toUInt8) &&& 1 = 0
  then 0 else 0x40

end Redumper.ChannelQ
