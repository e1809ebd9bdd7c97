/-
CaptureSplit.Proofs.FileNames — the names of packet files.

The name of a packet's file is the capture's name and a suffix that holds
the two numbers. Read from its end it falls apart in one way only: a
numeral holds no hyphen, so the last hyphen stands before the number of the
packet and, once that is taken off, the last one left stands before the
number of the conversation. What the capture is called does not matter,
even if it looks like the name of a packet's file (`packetFileName_inj`).

The paths of an output's packets are one stem, the same for all of them,
with the suffix behind it (`packetPath_eq`).
-/
import CaptureSplit.Output
import CaptureSplit.Proofs.Encoding
import CaptureSplit.Proofs.Splitting

namespace CaptureSplit

/-- What stands behind the capture's name in the name of a packet's file. -/
def packetSuffix (conversation packet : Nat) : String :=
  "-conv-" ++ toString conversation ++ "-packet-" ++ toString packet ++ ".dat"

theorem packetFileName_eq (captureName : String) (conversation packet : Nat) :
    packetFileName captureName conversation packet =
      captureName ++ packetSuffix conversation packet := by
  simp only [packetFileName, packetSuffix, String.append_assoc]

/-! ## Taking a name apart -/

theorem isDigit_of_mem_numeral {n : Nat} {c : Char} (h : c ∈ (toString n).toList) :
    c.isDigit = true := by
  rw [Nat.toString_eq_repr, Nat.toList_repr] at h
  exact Nat.isDigit_of_mem_toDigits (by decide) (by decide) h

theorem hyphen_notMem_numeral (n : Nat) : '-' ∉ (toString n).toList := by
  intro h
  have := isDigit_of_mem_numeral h
  contradiction

theorem numeral_inj {m n : Nat} (h : (toString m).toList = (toString n).toList) : m = n := by
  rw [Nat.toString_eq_repr, Nat.toString_eq_repr, Nat.toList_repr, Nat.toList_repr] at h
  have hvalue := congrArg (fun cs => Nat.ofDigitChars 10 cs 0) h
  simpa using hvalue

/-- A packet's name tells the capture's name and both numbers. -/
theorem packetFileName_inj {a b : String} {c p c' p' : Nat}
    (h : packetFileName a c p = packetFileName b c' p') : a = b ∧ c = c' ∧ p = p' := by
  have hname : ∀ (n : String) (c p : Nat), (packetFileName n c p).toList =
      ((n.toList ++ "-conv".toList) ++ '-' :: (toString c).toList ++ "-packet".toList) ++
        '-' :: (toString p).toList ++ ".dat".toList := by
    intro n c p
    simp [packetFileName]
  have h := congrArg String.toList h
  rw [hname, hname] at h
  obtain ⟨h, hp⟩ := Splitting.append_cons_inj_last (hyphen_notMem_numeral p)
    (hyphen_notMem_numeral p') (List.append_cancel_right h)
  obtain ⟨h, hc⟩ := Splitting.append_cons_inj_last (hyphen_notMem_numeral c)
    (hyphen_notMem_numeral c') (List.append_cancel_right h)
  exact ⟨String.toList_inj.mp (List.append_cancel_right h), numeral_inj hc, numeral_inj hp⟩

theorem packetSuffix_inj {c p c' p' : Nat} (h : packetSuffix c p = packetSuffix c' p') :
    c = c' ∧ p = p' := by
  have hname : packetFileName "" c p = packetFileName "" c' p' := by
    rw [packetFileName_eq, packetFileName_eq, h]
  exact (packetFileName_inj hname).2

/-! ## Bytes of a suffix -/

/-- The characters of a suffix: digits, and what stands around them. -/
theorem mem_packetSuffix {c p : Nat} {x : Char} (h : x ∈ (packetSuffix c p).toList) :
    x.isDigit = true ∨ x ∈ "-conv-packet.dat".toList := by
  simp only [packetSuffix, String.toList_append, List.mem_append] at h
  rcases h with (((h | h) | h) | h) | h
  · exact .inr (List.mem_append_left "packet.dat".toList h)
  · exact .inl (isDigit_of_mem_numeral h)
  · have hsub : ∀ y ∈ "-packet-".toList, y ∈ "-conv-packet.dat".toList := by simp
    exact .inr (hsub x h)
  · exact .inl (isDigit_of_mem_numeral h)
  · exact .inr (List.mem_append_right "-conv-packet".toList h)

/-- An ASCII character that is neither stands in no suffix as a byte. -/
theorem notMem_packetSuffix {b : UInt8} (hb : b.toNat < 0x80)
    (hdigit : (Char.ofNat b.toNat).isDigit = false)
    (hletter : Char.ofNat b.toNat ∉ "-conv-packet.dat".toList) (c p : Nat) :
    b ∉ Text.Utf8.ofString (packetSuffix c p) := by
  intro h
  rcases mem_packetSuffix ((Text.Utf8.mem_encode_iff hb _).mp h) with h | h
  · rw [hdigit] at h
    cases h
  · exact hletter h

theorem slash_notMem_packetSuffix (c p : Nat) :
    Path.slash ∉ Text.Utf8.ofString (packetSuffix c p) :=
  notMem_packetSuffix (by decide) (by decide) (by decide) c p

theorem zero_notMem_packetSuffix (c p : Nat) : 0 ∉ Text.Utf8.ofString (packetSuffix c p) :=
  notMem_packetSuffix (by decide) (by decide) (by decide) c p

theorem four_le_length_packetSuffix (c p : Nat) :
    4 ≤ (Text.Utf8.ofString (packetSuffix c p)).length := by
  simp only [packetSuffix, Text.Utf8.ofString, String.toList_append, Text.Utf8.encode_append,
    List.length_append]
  have hend : (Text.Utf8.encode ".dat".toList).length = 4 := by decide
  omega

theorem ofString_packetFileName (captureName : String) (c p : Nat) :
    Text.Utf8.ofString (packetFileName captureName c p) =
      Text.Utf8.ofString captureName ++ Text.Utf8.ofString (packetSuffix c p) := by
  simp only [Text.Utf8.ofString, packetFileName_eq, String.toList_append, Text.Utf8.encode_append]

/-- The name of a packet is longer than two dots. -/
theorem two_lt_length_packetFileName (captureName : String) (c p : Nat) :
    2 < (Text.Utf8.ofString (packetFileName captureName c p)).length := by
  have hsuffix := four_le_length_packetSuffix c p
  rw [ofString_packetFileName, List.length_append]
  omega

/-! ## Paths -/

theorem Path.isAbsolute_append {p suffix : Path} (h : slash ∉ suffix) :
    (p ++ suffix).isAbsolute = p.isAbsolute := by
  cases p with
  | nil =>
    cases suffix with
    | nil => rfl
    | cons b rest =>
      have hb : b ≠ slash := fun hb => h (by simp [hb])
      simp [isAbsolute, hb]
  | cons b rest => rfl

namespace Output

/-! ## The output of a capture -/

theorem ofCapture_eq {capture : Path} {name : Name} (h : capture.fileName? = some name)
    (directory : Path) :
    ofCapture capture directory = .ok ⟨directory, Text.Utf8.toStringLossy name⟩ := by
  rw [ofCapture, h]

theorem exists_of_ofCapture {capture directory : Path} {o : Output}
    (h : ofCapture capture directory = .ok o) :
    ∃ name, capture.fileName? = some name ∧ o = ⟨directory, Text.Utf8.toStringLossy name⟩ := by
  rw [ofCapture] at h
  split at h
  · next name hname => exact ⟨name, hname, (Except.ok.inj h).symm⟩
  · cases h

/-! ## Paths of packets -/

/-- The path that all packets of an output have in common. -/
def stem (o : Output) : Path := o.directory.join (Text.Utf8.ofString o.captureName)

theorem packetPath_eq (o : Output) (c p : Nat) :
    o.packetPath c p = o.stem ++ Text.Utf8.ofString (packetSuffix c p) := by
  rw [packetPath, stem, ofString_packetFileName, Path.join, Path.join,
    Path.isAbsolute_append (slash_notMem_packetSuffix c p)]
  split
  · rfl
  · split
    · rfl
    · split <;> simp

theorem packetPath_inj {o : Output} {c p c' p' : Nat}
    (h : o.packetPath c p = o.packetPath c' p') : c = c' ∧ p = p' := by
  rw [packetPath_eq, packetPath_eq] at h
  exact packetSuffix_inj (Text.Utf8.ofString_injective (List.append_cancel_left h))

end Output
end CaptureSplit
