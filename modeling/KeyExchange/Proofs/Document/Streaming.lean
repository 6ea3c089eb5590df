import KeyExchange.Proofs.Document.Failure
import KeyExchange.Proofs.Source

/-!
# Loading from a source

A source is asked for one octet more than an artifact may have.  That is enough to see
that an artifact is too long, and an artifact that is not is read to its end.  So what is
loaded from a source is what is loaded from its octets, however they come.

* `loadFrom_cases`: a source whose reading fails, and one whose reading does not;
* `load_take_readLimit`: what is behind the limit does not count;
* `loadFrom_exact`: loading from a source and from its octets.
-/

namespace KeyExchange.Document

open Outcome

variable {settings : Settings} {credentials : List Credential} {artifact : Bytes}
  {source : Source}

/-- One octet more than an artifact may have is asked for, unless that number does not fit 64
bits. -/
theorem readLimit_eq (settings : Settings) :
    readLimit settings = min (settings.maxArtifactLength + 1) (2 ^ 64 - 1) := rfl

/-- A source that fails makes the load fail; otherwise the beginning of its data is loaded. -/
theorem loadFrom_cases (h : source.Willing) :
    (source.FailsBefore (readLimit settings) →
      loadFrom settings credentials source = .error (.io .readFailed)) ∧
    (¬source.FailsBefore (readLimit settings) →
      loadFrom settings credentials source
        = load settings credentials (source.data.take (readLimit settings))) := by
  have hreads := h.readUpTo (readLimit settings)
  unfold loadFrom
  constructor
  · intro hfails
    rw [hreads.failed hfails]
    rfl
  · intro hfails
    rw [hreads.read hfails, mapError_ok, ok_bind]

/-- **Behind the limit.**  An artifact that was cut at the limit is as good as the whole:
when something was cut off, it is still too long. -/
theorem load_take_readLimit (hsize : artifact.length ≤ 2 ^ 63 - 1) :
    load settings credentials (artifact.take (readLimit settings))
      = load settings credentials artifact := by
  rw [readLimit_eq]
  rcases lt_or_ge settings.maxArtifactLength artifact.length with hlong | hfits
  · have hcut : settings.maxArtifactLength
        < (artifact.take (min (settings.maxArtifactLength + 1) (2 ^ 64 - 1))).length := by
      rw [List.length_take]
      omega
    rw [load_of_length_lt hlong, load_of_length_lt hcut]
  · have hwhole : artifact.take (min (settings.maxArtifactLength + 1) (2 ^ 64 - 1)) = artifact :=
      List.take_of_length_le (by omega)
    rw [hwhole]

/-- **Loading from a source** comes to what loading its octets comes to, whatever the
limit.  At most one octet more than the limit is read, and all others stay in the source.
An artifact up to the limit is judged by its octets alone, and of a longer one not even
its beginning is looked at. -/
theorem loadFrom_exact (settings : Settings) (credentials : List Credential)
    (hsource : source.Yields artifact) (hsize : artifact.length ≤ 2 ^ 63 - 1) :
    loadFrom settings credentials source = load settings credentials artifact ∧
    ((source.readUpTo (readLimit settings)).1
        = .ok (artifact.take (min (settings.maxArtifactLength + 1) (2 ^ 64 - 1))) ∧
      (source.readUpTo (readLimit settings)).2.data
        = artifact.drop (min (settings.maxArtifactLength + 1) (2 ^ 64 - 1))) ∧
    (artifact.length ≤ settings.maxArtifactLength →
      loadFrom settings credentials source
        = StoredDocument.ofArtifact artifact >>= fun d => ofStored d credentials) ∧
    (settings.maxArtifactLength < artifact.length →
      loadFrom settings credentials source
        = .error (.parse (.tooLong settings.maxArtifactLength))) := by
  have hsame : loadFrom settings credentials source = load settings credentials artifact := by
    rw [(loadFrom_cases hsource.willing).2 (hsource.not_failsBefore _), hsource.data,
      load_take_readLimit hsize]
  refine ⟨hsame, hsource.readUpTo _, fun hfits => ?_, fun hlong => ?_⟩
  · rw [hsame, load_of_length_le hfits]
  · rw [hsame, load_of_length_lt hlong]

/-- A source that gives five octets, is interrupted, gives one, and then goes on in threes. -/
def unsteadySource (data : Bytes) : Source :=
  { data, chunk := some 3, turns := [.piece 5, .interrupted, .piece 1] }

/-- The unsteady source gives its data. -/
theorem yields_unsteadySource (data : Bytes) : (unsteadySource data).Yields data where
  data := rfl
  willing := ⟨by simp [unsteadySource], by simp [unsteadySource]⟩
  reliable := rfl

/-- An artifact as long as the limit is loaded.  With one octet behind it, it is too long,
although what fits the limit is an artifact. -/
theorem loadFrom_exact_bareDocument :
    let artifact := (StoredDocument.bareDocument formatVersion [] none).toArtifact .compact
    (∃ d, loadFrom { maxArtifactLength := artifact.length } [] (unsteadySource artifact) = .ok d) ∧
    loadFrom { maxArtifactLength := artifact.length } [] (unsteadySource (artifact ++ [0x7d]))
      = .error (.parse (.tooLong artifact.length)) := by
  intro artifact
  let settings : Settings := { maxArtifactLength := artifact.length }
  have hlonger : (artifact ++ [0x7d]).length ≤ 2 ^ 63 - 1 := by decide +kernel
  have hsize : artifact.length ≤ 2 ^ 63 - 1 := by
    rw [List.length_append] at hlonger
    exact (Nat.le_add_right _ _).trans hlonger
  have hread := (StoredDocument.wellFormed_bareDocument none).ofArtifact_toArtifact .compact
  have hkey : (StoredDocument.bareDocument formatVersion [] none).recoverKey [] = .ok none := rfl
  have hfits : artifact.length ≤ settings.maxArtifactLength := le_rfl
  obtain ⟨d, hload⟩ := exists_load_of_recoverKey hfits hread hkey
  obtain ⟨hsame, -, -, -⟩ := loadFrom_exact settings [] (yields_unsteadySource artifact) hsize
  obtain ⟨-, -, -, hlong⟩ :=
    loadFrom_exact settings [] (yields_unsteadySource (artifact ++ [0x7d])) hlonger
  exact ⟨⟨d, hsame.trans hload⟩, hlong (by simp [settings])⟩

end KeyExchange.Document
