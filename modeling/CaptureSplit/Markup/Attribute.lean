/-
CaptureSplit.Markup.Attribute — looking a key up in a tag.

Attributes are read from the left, and only as far as the one that is
looked for: `lookUp` meets a malformed attribute, or a key for the second
time, only on the way to its own key. A value stands between quotation
marks of either kind and is taken as it is; blanks are admitted around the
equals sign and needed nowhere.
-/
import CaptureSplit.Markup.Token

namespace CaptureSplit.Markup

/-- The front of what stands behind a tag's name. -/
inductive Front where
  /-- Blanks at most. -/
  | done
  | malformed
  | attribute (key value rest : Bytes)
  deriving DecidableEq

/-- Whether a key goes on with this byte. -/
def isKeyByte (b : UInt8) : Bool := b ≠ 0x3D && !isBlank b

/-- Reads the value behind an equals sign. -/
def valueFront (key afterEquals : Bytes) : Front :=
  match afterEquals.dropWhile isBlank with
  | [] => .malformed
  | quote :: body =>
    if quote = 0x22 || quote = 0x27 then
      match body.dropWhile (· ≠ quote) with
      | [] => .malformed
      | _ :: rest => .attribute key (body.takeWhile (· ≠ quote)) rest
    else .malformed

/-- Reads the first attribute. The first byte of a key may be any that is
no blank. -/
def front (text : Bytes) : Front :=
  match text.dropWhile isBlank with
  | [] => .done
  | first :: rest =>
    match (rest.dropWhile isKeyByte).dropWhile isBlank with
    | 0x3D :: afterEquals => valueFront (first :: rest.takeWhile isKeyByte) afterEquals
    | _ => .malformed

/-! ## Each attribute takes some of the text -/

theorem length_dropWhile_le (p : UInt8 → Bool) (bs : Bytes) :
    (bs.dropWhile p).length ≤ bs.length := by
  induction bs with
  | nil => simp
  | cons b rest ih =>
    by_cases h : p b = true
    · simp [h]; omega
    · simp [h]

theorem valueFront_rest_lt {key after k v rest : Bytes}
    (h : valueFront key after = .attribute k v rest) : rest.length < after.length := by
  unfold valueFront at h
  have h0 := length_dropWhile_le isBlank after
  split at h
  · cases h
  · next quote body hb =>
    split at h
    · have h1 := length_dropWhile_le (· ≠ quote) body
      split at h
      · cases h
      · next head tail ht =>
        injection h with _ _ hr
        subst hr
        rw [ht] at h1
        rw [hb] at h0
        simp only [List.length_cons] at h0 h1
        omega
    · cases h

theorem front_rest_lt {text key value rest : Bytes}
    (h : front text = .attribute key value rest) : rest.length < text.length := by
  unfold front at h
  have h0 := length_dropWhile_le isBlank text
  split at h
  · cases h
  · next first tail ht =>
    have h1 := length_dropWhile_le isKeyByte tail
    have h2 := length_dropWhile_le isBlank (tail.dropWhile isKeyByte)
    split at h
    · next after ha =>
      have h3 := valueFront_rest_lt h
      rw [ht] at h0
      rw [ha] at h2
      simp only [List.length_cons] at h0 h2
      omega
    · cases h

/-! ## Looking up -/

/-- What looking a key up comes to. -/
inductive Found where
  | value (bytes : Bytes)
  | absent
  | malformed
  deriving DecidableEq

/-- Looks for a key behind attributes whose keys are `met`. -/
def lookUpFrom (key : Bytes) (met : List Bytes) (text : Bytes) : Found :=
  match _h : front text with
  | .done => .absent
  | .malformed => .malformed
  | .attribute k v rest =>
    if met.contains k then .malformed
    else if k = key then .value v
    else lookUpFrom key (k :: met) rest
termination_by text.length
decreasing_by exact front_rest_lt (by assumption)

/-- The value of the first attribute with a key. -/
def lookUp (key attributes : Bytes) : Found := lookUpFrom key [] attributes

end CaptureSplit.Markup
