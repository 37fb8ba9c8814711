/-
Fingerprints of programs: a hash of the target's name and the source, which
tells whether a stored program has changed.
-/
import FlowScript.Hash.Xxh3
import FlowScript.Target.Basic

namespace FlowScript

structure Fingerprint where
  value : UInt64
deriving DecidableEq, Repr

namespace Fingerprint

/-- The seed that belongs to fingerprints. -/
def seed : UInt64 := 0x5f1c0a7ed3b29e41

/-- What is hashed: the target's name, a zero, the length of the source and the source. -/
def material (target : Target) (source : String) : ByteArray :=
  let bytes := source.toUTF8
  target.name.toUTF8 ++ ⟨#[0]⟩ ++ ⟨(Xxh3.bytesOf bytes.size.toUInt64).toArray⟩ ++ bytes

def ofSource (target : Target) (source : String) : Fingerprint := ⟨Xxh3.hash seed (material target source)⟩

/-- Sixteen hexadecimal digits. -/
def text (f : Fingerprint) : String :=
  let ds := Nat.toDigits 16 f.value.toNat
  String.ofList (List.replicate (16 - ds.length) '0' ++ ds)

end Fingerprint

end FlowScript
