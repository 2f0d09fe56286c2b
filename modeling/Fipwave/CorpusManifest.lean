import Fipwave.BridgeReport

/-!
# The corpus of a qualification

The cases of the corpus as its manifest lists them: in each direction twenty
short payloads and five long ones, each with a name and the digest of its
payload.
-/

namespace Fipwave.CorpusManifest

open QualificationSession BridgeReport

/-- The cases of the manifest, in its order. -/
def manifestCases : List CorpusEntry :=
  [⟨"a-to-b-256-01", .aToB, 256,
      "5341e6b2646979a70e57653007a1f310169421ec9bdd9f1a5648f75ade005af1"⟩,
    ⟨"a-to-b-256-02", .aToB, 256,
      "3d6876a0146de8576eb2395a858de1213d1b92c65b779df3a331cfd5a4584546"⟩,
    ⟨"a-to-b-256-03", .aToB, 256,
      "feb3943c6cbca3f3bf6491b0c021f40368536c7fd54c418a3a754ced89351880"⟩,
    ⟨"a-to-b-256-04", .aToB, 256,
      "f27a3a59770a5641860de605db1cca7212f7132cda71d0217901c4c347ba15ab"⟩,
    ⟨"a-to-b-256-05", .aToB, 256,
      "b45d68b0907a82373581e4a481f25360a09966978c2cf27292be3edc793ebd33"⟩,
    ⟨"a-to-b-256-06", .aToB, 256,
      "5341e6b2646979a70e57653007a1f310169421ec9bdd9f1a5648f75ade005af1"⟩,
    ⟨"a-to-b-256-07", .aToB, 256,
      "3d6876a0146de8576eb2395a858de1213d1b92c65b779df3a331cfd5a4584546"⟩,
    ⟨"a-to-b-256-08", .aToB, 256,
      "dd6ffa2e9eca842e3b1385edad940cf4581c200217cc881b76381bcc2b2bfe31"⟩,
    ⟨"a-to-b-256-09", .aToB, 256,
      "200bd68ee0036a1c243c95ed34ce125bb51fb50edbd9b2aa1c79a0356f4bb508"⟩,
    ⟨"a-to-b-256-10", .aToB, 256,
      "9f6cfcdd055cfa01bfd2dac28b7912c015946b098babaa2be27da49b38994f89"⟩,
    ⟨"a-to-b-256-11", .aToB, 256,
      "5341e6b2646979a70e57653007a1f310169421ec9bdd9f1a5648f75ade005af1"⟩,
    ⟨"a-to-b-256-12", .aToB, 256,
      "3d6876a0146de8576eb2395a858de1213d1b92c65b779df3a331cfd5a4584546"⟩,
    ⟨"a-to-b-256-13", .aToB, 256,
      "f375b4a71df87ae9601746f45a1b12fdf19e8dd46a942e9cf59086b7df771763"⟩,
    ⟨"a-to-b-256-14", .aToB, 256,
      "f27a3a59770a5641860de605db1cca7212f7132cda71d0217901c4c347ba15ab"⟩,
    ⟨"a-to-b-256-15", .aToB, 256,
      "a540c9291b2c5175125deff725d1d558d526549b3624d0601432f82ac3f70a1a"⟩,
    ⟨"a-to-b-256-16", .aToB, 256,
      "5341e6b2646979a70e57653007a1f310169421ec9bdd9f1a5648f75ade005af1"⟩,
    ⟨"a-to-b-256-17", .aToB, 256,
      "3d6876a0146de8576eb2395a858de1213d1b92c65b779df3a331cfd5a4584546"⟩,
    ⟨"a-to-b-256-18", .aToB, 256,
      "2d90a1e62c68792ebe959115f2f229f70c2a2383f4751feee91790557479948f"⟩,
    ⟨"a-to-b-256-19", .aToB, 256,
      "200bd68ee0036a1c243c95ed34ce125bb51fb50edbd9b2aa1c79a0356f4bb508"⟩,
    ⟨"a-to-b-256-20", .aToB, 256,
      "28aeec29f9d8df3fde2767450a7bd1e5f6c0a318889fa1e1fafe4acb2f2fb244"⟩,
    ⟨"a-to-b-1536-01", .aToB, 1536,
      "80422bc3d307b4a25bdafcc84ac7fb01cb55a09810e8b0f37bb12e0edb5c48ca"⟩,
    ⟨"a-to-b-1536-02", .aToB, 1536,
      "e6d1b616fc8f6230c07d0e573527b701e7f377803916cc22f51faa21917d9160"⟩,
    ⟨"a-to-b-1536-03", .aToB, 1536,
      "18005dd022aec76604509addf4281b6a53b34752a1cd976c78e136198c2720bb"⟩,
    ⟨"a-to-b-1536-04", .aToB, 1536,
      "e6c168f9928a0e083fed4af23bc8aefd672dc4e4df5bcec91d7fd460e722a3c3"⟩,
    ⟨"a-to-b-1536-05", .aToB, 1536,
      "da1e752cfe2b0fe460a276108b1f60f7c6dc96fc3e336f6b4d77249a51e0cc96"⟩,
    ⟨"b-to-a-256-01", .bToA, 256,
      "5341e6b2646979a70e57653007a1f310169421ec9bdd9f1a5648f75ade005af1"⟩,
    ⟨"b-to-a-256-02", .bToA, 256,
      "3d6876a0146de8576eb2395a858de1213d1b92c65b779df3a331cfd5a4584546"⟩,
    ⟨"b-to-a-256-03", .bToA, 256,
      "feb3943c6cbca3f3bf6491b0c021f40368536c7fd54c418a3a754ced89351880"⟩,
    ⟨"b-to-a-256-04", .bToA, 256,
      "f27a3a59770a5641860de605db1cca7212f7132cda71d0217901c4c347ba15ab"⟩,
    ⟨"b-to-a-256-05", .bToA, 256,
      "0b97a0d581a35644a711e87fc623098aa2a6e3d9236b419fd313175d48413706"⟩,
    ⟨"b-to-a-256-06", .bToA, 256,
      "5341e6b2646979a70e57653007a1f310169421ec9bdd9f1a5648f75ade005af1"⟩,
    ⟨"b-to-a-256-07", .bToA, 256,
      "3d6876a0146de8576eb2395a858de1213d1b92c65b779df3a331cfd5a4584546"⟩,
    ⟨"b-to-a-256-08", .bToA, 256,
      "dd6ffa2e9eca842e3b1385edad940cf4581c200217cc881b76381bcc2b2bfe31"⟩,
    ⟨"b-to-a-256-09", .bToA, 256,
      "200bd68ee0036a1c243c95ed34ce125bb51fb50edbd9b2aa1c79a0356f4bb508"⟩,
    ⟨"b-to-a-256-10", .bToA, 256,
      "d5e14d8b7e6ca9b6a405a0764acde9b781bda6879aeca35b20349e294d1cf518"⟩,
    ⟨"b-to-a-256-11", .bToA, 256,
      "5341e6b2646979a70e57653007a1f310169421ec9bdd9f1a5648f75ade005af1"⟩,
    ⟨"b-to-a-256-12", .bToA, 256,
      "3d6876a0146de8576eb2395a858de1213d1b92c65b779df3a331cfd5a4584546"⟩,
    ⟨"b-to-a-256-13", .bToA, 256,
      "f375b4a71df87ae9601746f45a1b12fdf19e8dd46a942e9cf59086b7df771763"⟩,
    ⟨"b-to-a-256-14", .bToA, 256,
      "f27a3a59770a5641860de605db1cca7212f7132cda71d0217901c4c347ba15ab"⟩,
    ⟨"b-to-a-256-15", .bToA, 256,
      "e9c12fe86ea0827166a5db0fff73b9ece98a5df617ad0fa3da817a1c3149e85e"⟩,
    ⟨"b-to-a-256-16", .bToA, 256,
      "5341e6b2646979a70e57653007a1f310169421ec9bdd9f1a5648f75ade005af1"⟩,
    ⟨"b-to-a-256-17", .bToA, 256,
      "3d6876a0146de8576eb2395a858de1213d1b92c65b779df3a331cfd5a4584546"⟩,
    ⟨"b-to-a-256-18", .bToA, 256,
      "2d90a1e62c68792ebe959115f2f229f70c2a2383f4751feee91790557479948f"⟩,
    ⟨"b-to-a-256-19", .bToA, 256,
      "200bd68ee0036a1c243c95ed34ce125bb51fb50edbd9b2aa1c79a0356f4bb508"⟩,
    ⟨"b-to-a-256-20", .bToA, 256,
      "757b6ab8e75e524ef8302e0b9d21eff0fdcc12ae2b5c1a09a666cfc6d8d25540"⟩,
    ⟨"b-to-a-1536-01", .bToA, 1536,
      "80422bc3d307b4a25bdafcc84ac7fb01cb55a09810e8b0f37bb12e0edb5c48ca"⟩,
    ⟨"b-to-a-1536-02", .bToA, 1536,
      "e6d1b616fc8f6230c07d0e573527b701e7f377803916cc22f51faa21917d9160"⟩,
    ⟨"b-to-a-1536-03", .bToA, 1536,
      "18005dd022aec76604509addf4281b6a53b34752a1cd976c78e136198c2720bb"⟩,
    ⟨"b-to-a-1536-04", .bToA, 1536,
      "e6c168f9928a0e083fed4af23bc8aefd672dc4e4df5bcec91d7fd460e722a3c3"⟩,
    ⟨"b-to-a-1536-05", .bToA, 1536,
      "cc12d2243647a6f3386fffa16fff229455bbc206ba32973447700a56862b1922"⟩]

/-- No two cases have the same name. -/
theorem nodup_ids : (manifestCases.map (·.id)).Nodup := by decide +kernel

/-- Code of a hexadecimal digit in lower case. -/
def hexCode (code : ℕ) : Bool :=
  (Nat.ble 48 code && Nat.ble code 57) || (Nat.ble 97 code && Nat.ble code 102)

/-- A character with such a code is a hexadecimal digit. -/
theorem isHexDigit_of_code {c : Char} (h : hexCode c.toNat = true) : isHexDigit c = true := by
  unfold hexCode at h
  simp only [Bool.or_eq_true, Bool.and_eq_true, Nat.ble_eq] at h
  unfold isHexDigit
  simp only [Bool.or_eq_true, Bool.and_eq_true, decide_eq_true_eq]
  rcases h with hdigit | hletter
  · left
    left
    unfold Char.isDigit
    simp only [Bool.and_eq_true, decide_eq_true_eq]
    exact hdigit
  · left
    right
    exact hletter

/-- A text of such characters is a digest. -/
theorem isDigest_ofList (chars : List Char)
    (h : (Nat.beq chars.length 64 && chars.all (fun c => hexCode c.toNat)) = true) :
    isDigest (String.ofList chars) = true := by
  rw [Bool.and_eq_true, Nat.beq_eq, List.all_eq_true] at h
  unfold isDigest
  rw [String.toList_ofList, Bool.and_eq_true, decide_eq_true_eq, List.all_eq_true]
  exact ⟨h.1, fun c hc => isHexDigit_of_code (h.2 c hc)⟩

/-- Every case has the digest of its payload. -/
theorem isDigest_sha256 : ∀ entry ∈ manifestCases, isDigest entry.sha256 = true := by
  unfold manifestCases
  simp only [List.forall_mem_cons]
  and_intros
  all_goals first | exact isDigest_ofList _ rfl | exact List.forall_mem_nil _

/-- Every case has a name that is not blank. -/
theorem notBlank_ids : ∀ entry ∈ manifestCases, entry.id.toList.all isSpace = false := by
  have hofList : ∀ chars : List Char, chars.all isSpace = false →
      (String.ofList chars).toList.all isSpace = false := by
    intro chars h
    rw [String.toList_ofList]
    exact h
  unfold manifestCases
  simp only [List.forall_mem_cons]
  and_intros
  all_goals first | exact hofList _ rfl | exact List.forall_mem_nil _

/-- A case of the corpus by its name. -/
def manifestCase (corpus : List CorpusEntry) (caseId : String) : Option CorpusEntry :=
  corpus.find? (·.id = caseId)

/-- A case is found by its name. -/
theorem manifestCase_of_mem {corpus : List CorpusEntry} (h : (corpus.map (·.id)).Nodup)
    {entry : CorpusEntry} (hentry : entry ∈ corpus) :
    manifestCase corpus entry.id = some entry := by
  unfold manifestCase
  induction corpus with
  | nil => cases hentry
  | cons first rest ih =>
    rw [List.map_cons, List.nodup_cons] at h
    rcases List.mem_cons.mp hentry with rfl | hrest
    · rw [List.find?_cons_of_pos (by simp)]
    · have hne : first.id ≠ entry.id := by
        intro heq
        apply h.1
        rw [heq]
        exact List.mem_map_of_mem hrest
      rw [List.find?_cons_of_neg (by simpa using hne)]
      exact ih h.2 hrest

end Fipwave.CorpusManifest
