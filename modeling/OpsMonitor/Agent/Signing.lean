import OpsMonitor.Library.Sha256
import OpsMonitor.Library.Text

/-! The signed string of an agent request and its verification (`core/signing.py`). Ed25519 is
the third-party part: which bytes are a public key, and which signatures it verifies. -/

namespace OpsMonitor.Agent
open Library Base64

structure Ed25519 where
  fromPublicBytes : Bytes → Bool
  verify : Bytes → Bytes → Bytes → Bool

/-- `str.encode("utf-8")`. -/
def utf8 (text : String) : Bytes := text.toByteArray.data.toList

def bodySha256 (body : Bytes) : String := Sha256.hexdigest body

def canonicalString (method path timestamp requestId : String) (body : Bytes) : Bytes :=
  utf8 (upper method ++ "\n" ++ path ++ "\n" ++ timestamp ++ "\n" ++ requestId ++ "\n" ++
    bodySha256 body)

example : canonicalString "post" "/api" "7" "r" [] = utf8
    "POST\n/api\n7\nr\ne3b0c44298fc1c149afbf4c8996fb92427ae41e4649b934ca495991b7852b855" := by
  decide +kernel

section
variable (ed : Ed25519)

def isValidPublicKey (publicKey : String) : Bool :=
  match b64decode publicKey true with
  | some key => ed.fromPublicBytes key
  | none => false

def verifySignature (publicKey signature : String) (canonical : Bytes) : Bool :=
  match b64decode publicKey false, b64decode signature false with
  | some key, some signature => ed.fromPublicBytes key && ed.verify key signature canonical
  | _, _ => false

end

theorem utf8_injective : Function.Injective utf8 := by
  intro a b h
  exact String.toByteArray_inj.mp (ByteArray.ext (Array.toList_inj.mp h))

theorem notMem_bodySha256 (body : Bytes) : '\n' ∉ (bodySha256 body).toList :=
  Sha256.notMem_hex (by decide) _

/-- The signed string determines what was signed: its lines come apart from the front up to the
timestamp and from the back down to the digest, whatever the request id is. -/
theorem canonicalString_inj {method path timestamp requestId method' path' timestamp' requestId' :
    String} {body body' : Bytes} (hm : '\n' ∉ method.toList) (hm' : '\n' ∉ method'.toList)
    (hp : '\n' ∉ path.toList) (hp' : '\n' ∉ path'.toList) (ht : '\n' ∉ timestamp.toList)
    (ht' : '\n' ∉ timestamp'.toList)
    (h : canonicalString method path timestamp requestId body =
      canonicalString method' path' timestamp' requestId' body') :
    upper method = upper method' ∧ path = path' ∧ timestamp = timestamp' ∧
      requestId = requestId' ∧ bodySha256 body = bodySha256 body' := by
  have htext := utf8_injective h
  obtain ⟨hfront, hbody⟩ := separated_last_inj (c := '\n') (notMem_bodySha256 body)
    (notMem_bodySha256 body') htext
  have hlines : upper method ++ "\n" ++ (path ++ "\n" ++ (timestamp ++ "\n" ++ requestId)) =
      upper method' ++ "\n" ++ (path' ++ "\n" ++ (timestamp' ++ "\n" ++ requestId')) := by
    simpa [String.append_assoc] using hfront
  obtain ⟨hmethod, hrest⟩ := separated_inj (c := '\n') (notMem_upper hm) (notMem_upper hm') hlines
  obtain ⟨hpath, hrest⟩ := separated_inj (c := '\n') hp hp' hrest
  obtain ⟨htimestamp, hid⟩ := separated_inj (c := '\n') ht ht' hrest
  exact ⟨hmethod, hpath, htimestamp, hid, hbody⟩

end OpsMonitor.Agent
