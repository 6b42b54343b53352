import BmutilProofs.Identity.Search
import BmutilProofs.Reference

/-!
Exporting an identity in wallet import format and importing it back.

`ExportWIF` writes the address and the two keys; `ImportWIF` takes them with the two
proof-of-work parameters, recomputes the address from the keys and checks its ripe: it
accepts exactly the keys that hash to the ripe of the address. It has no way to receive the
behavior flags: the imported identity always has behavior zero, and on identities it made
itself, export then import is exact.
-/

namespace BmutilProofs.Wif

open BmutilProofs.Stream BmutilProofs.Model BmutilProofs.Identity BmutilProofs.Reference

variable {env : Env}

/-- Importing what `ExportWIF` writes for an identity whose address carries the hash of its
keys gives the identity back, with behavior zero. -/
lemma importWIF_exportWIF_of_addressOfKeys (hA : env.AddressStringInverts) (hW : env.WifInverts)
    {id : Private} {a : Address} (ha : id.address = some a) (hr : a.ripe = Private.hash env id) :
    importWIF env (env.addressString a) (env.encodeWIF id.signingKey) (env.encodeWIF id.decryptionKey)
      id.pow.nonceTrialsPerByte id.pow.extraBytes = .ok { id with behavior := 0 } := by
  obtain ⟨address, ⟨nt, eb⟩, sk, dk, b⟩ := id
  obtain ⟨v, s, ripe⟩ := a
  cases ha
  have hh : Private.hash env ⟨some ⟨v, s, ripe⟩, ⟨nt, eb⟩, sk, dk, 0⟩ = ripe := hr.symm
  simp [importWIF, hA ⟨v, s, ripe⟩, hW sk, hW dk, createAddress, hh]

/-- **Export then import restores an HD identity, but for its behavior.** For an identity
`NewHD` returns, `ExportWIF` gives three strings, and `ImportWIF` on them and the identity's
proof-of-work parameters returns the identity with its behavior set to zero: the same
address, keys and proof-of-work parameters. It returns the identity itself exactly when the
behavior asked of `NewHD` was zero. -/
theorem importWIF_exportWIF_newHD (hA : env.AddressStringInverts) (hW : env.WifInverts)
    {fuel : Nat} {masterKey : ExtendedKey} {n stream behavior : UInt32} {id : Private}
    (h : newHD env fuel masterKey n stream behavior = some (.ok id)) :
    ∃ address signingKeyWif decryptionKeyWif,
      Private.exportWIF env id = some (address, signingKeyWif, decryptionKeyWif) ∧
      importWIF env address signingKeyWif decryptionKeyWif id.pow.nonceTrialsPerByte
        id.pow.extraBytes = .ok { id with behavior := 0 } ∧
      ({ id with behavior := 0 } = id ↔ behavior = 0) := by
  obtain ⟨ha, -, hb⟩ := newHD_spec h
  refine ⟨_, _, _, by simp [Private.exportWIF, ha], importWIF_exportWIF_of_addressOfKeys hA hW ha rfl, ?_⟩
  obtain ⟨address, pow, sk, dk, b⟩ := id
  cases hb
  simp [eq_comm]

/-- **Export then import is exact on imported identities.** On an identity `ImportWIF`
returned, which already has behavior zero, `ExportWIF` gives three strings, and importing them
with the identity's proof-of-work parameters gives the identity back exactly. -/
theorem importWIF_exportWIF_importWIF (hA : env.AddressStringInverts) (hW : env.WifInverts)
    {address signingKeyWif decryptionKeyWif : Bytes} {nonceTrials extraBytes : UInt64} {id : Private}
    (h : importWIF env address signingKeyWif decryptionKeyWif nonceTrials extraBytes = .ok id) :
    ∃ address' signingKeyWif' decryptionKeyWif',
      Private.exportWIF env id = some (address', signingKeyWif', decryptionKeyWif') ∧
      importWIF env address' signingKeyWif' decryptionKeyWif' id.pow.nonceTrialsPerByte id.pow.extraBytes =
        .ok id := by
  obtain ⟨addr, sk, dk, -, -, -, hr, rfl⟩ := importWIF_spec h
  exact ⟨_, _, _, rfl, importWIF_exportWIF_of_addressOfKeys hA hW rfl hr⟩

/-- The identity of the keys `[1]` and `[2]` in the reference environment. -/
theorem importWIF_exportWIF_importWIF_ref :
    ∃ id, importWIF refEnv (refEnv.addressString ⟨4, 1, [0, 4, 1, 4, 2]⟩) [1] [2] 1000 1000 = .ok id ∧
      ∃ address' signingKeyWif' decryptionKeyWif',
        Private.exportWIF refEnv id = some (address', signingKeyWif', decryptionKeyWif') ∧
        importWIF refEnv address' signingKeyWif' decryptionKeyWif' id.pow.nonceTrialsPerByte id.pow.extraBytes =
          .ok id :=
  have h : importWIF refEnv (refEnv.addressString ⟨4, 1, [0, 4, 1, 4, 2]⟩) [1] [2] 1000 1000 = .ok _ := rfl
  ⟨_, h, importWIF_exportWIF_importWIF refEnv_addressStringInverts refEnv_wifInverts h⟩

/-- A private master key from which `NewHD` derives identities in the reference environment. -/
def refMaster : ExtendedKey := ⟨[1], [], true⟩

/-- An HD identity with behavior zero, in the reference environment. -/
theorem importWIF_exportWIF_newHD_ref :
    ∃ id, newHD refEnv 1 refMaster 0 1 0 = some (.ok id) ∧
      ∃ address signingKeyWif decryptionKeyWif,
        Private.exportWIF refEnv id = some (address, signingKeyWif, decryptionKeyWif) ∧
        importWIF refEnv address signingKeyWif decryptionKeyWif id.pow.nonceTrialsPerByte
          id.pow.extraBytes = .ok { id with behavior := 0 } ∧
        ({ id with behavior := 0 } = id ↔ (0 : UInt32) = 0) :=
  have h : newHD refEnv 1 refMaster 0 1 0 = some (.ok _) := rfl
  ⟨_, h, importWIF_exportWIF_newHD refEnv_addressStringInverts refEnv_wifInverts h⟩

/-- With behavior one, the imported identity differs from the one `NewHD` made, though the
collaborators meet the laws. -/
theorem importWIF_exportWIF_loses_behavior :
    refEnv.AddressStringInverts ∧ refEnv.WifInverts ∧
      ∃ id, newHD refEnv 1 refMaster 0 1 1 = some (.ok id) ∧ id.behavior = 1 ∧
        ∃ address signingKeyWif decryptionKeyWif,
          Private.exportWIF refEnv id = some (address, signingKeyWif, decryptionKeyWif) ∧
          ∃ id', importWIF refEnv address signingKeyWif decryptionKeyWif id.pow.nonceTrialsPerByte
            id.pow.extraBytes = .ok id' ∧ id' ≠ id :=
  ⟨refEnv_addressStringInverts, refEnv_wifInverts, _, rfl, rfl, _, _, _, rfl, _, rfl, by decide⟩

end BmutilProofs.Wif
