import BuildRules.Config.Identity
import BuildRules.Proofs.Digest.Collision
import BuildRules.Proofs.Value.Storable

namespace BuildRules.Config

open Value

theorem canonicalText_of_document {value : Value} {document : Json}
    (read : Json.ofValue value = .ok document) :
    canonicalText value = .ok (Json.render .compact document) := by
  rw [canonicalText, Json.write, read]
  rfl

/-- Plain values that can be written have canonical texts, which are equal just when the values are
equal up to the order of entries at every depth. -/
theorem exists_canonicalTexts {left right : Value} (leftPlain : left.Plain)
    (rightPlain : right.Plain) (leftWritten : left.Written) (rightWritten : right.Written) :
    ∃ leftText rightText, canonicalText left = .ok leftText ∧
      canonicalText right = .ok rightText ∧ (leftText = rightText ↔ left.Rearranged right) := by
  obtain ⟨document, leftRead⟩ := Json.exists_document leftPlain leftWritten
  obtain ⟨other, rightRead⟩ := Json.exists_document rightPlain rightWritten
  refine ⟨_, _, canonicalText_of_document leftRead, canonicalText_of_document rightRead, ?_, ?_⟩
  · intro texts
    have documents := Json.render_injective Json.separates_compact texts
    rw [← documents] at rightRead
    exact Json.rearranged_of_ofValue leftPlain rightPlain leftRead rightRead
  · intro same
    obtain ⟨shared, leftShared, rightShared⟩ :=
      Json.ofValue_of_rearranged leftPlain rightPlain leftWritten same
    rw [leftRead] at leftShared
    rw [rightRead] at rightShared
    rw [Except.ok.inj leftShared, Except.ok.inj rightShared]

theorem identity_of_rearranged {left right : Record} (leftPlain : Plain (.map left))
    (rightPlain : Plain (.map right)) (written : Written (.map left))
    (same : Rearranged (.map left) (.map right)) :
    identity (.map left) = identity (.map right) := by
  obtain ⟨leftText, rightText, leftShown, rightShown, texts⟩ :=
    exists_canonicalTexts leftPlain rightPlain written (written.of_rearranged same)
  simp only [identity, leftShown, rightShown, texts.mpr same]

/-- The canonical text is a complete identity of a configuration whose integers have a text. Its
digest never tells rearrangements apart, and does tell all else apart unless two texts collide. -/
theorem canonicalText_identifies {left right : Record} (leftPlain : Plain (.map left))
    (rightPlain : Plain (.map right)) (leftWritten : Written (.map left))
    (rightWritten : Written (.map right)) :
    ∃ leftText rightText, canonicalText (.map left) = .ok leftText ∧
      canonicalText (.map right) = .ok rightText ∧
      (leftText = rightText ↔ Rearranged (.map left) (.map right)) ∧
      identity (.map left) = .ok (Sha256.hex leftText.toUTF8.toList) ∧
      identity (.map right) = .ok (Sha256.hex rightText.toUTF8.toList) ∧
      (Rearranged (.map left) (.map right) → identity (.map left) = identity (.map right)) ∧
      (identity (.map left) = identity (.map right) → Rearranged (.map left) (.map right) ∨
        Sha256.Collision leftText.toUTF8.toList rightText.toUTF8.toList) := by
  obtain ⟨leftText, rightText, leftShown, rightShown, texts⟩ :=
    exists_canonicalTexts leftPlain rightPlain leftWritten rightWritten
  have leftIdentity : identity (.map left) = .ok (Sha256.hex leftText.toUTF8.toList) := by
    simp only [identity, leftShown]
  have rightIdentity : identity (.map right) = .ok (Sha256.hex rightText.toUTF8.toList) := by
    simp only [identity, rightShown]
  refine ⟨leftText, rightText, leftShown, rightShown, texts, leftIdentity, rightIdentity,
    identity_of_rearranged leftPlain rightPlain leftWritten, ?_⟩
  intro same
  rw [leftIdentity, rightIdentity] at same
  rcases Sha256.eq_or_collision (Except.ok.inj same) with equal | collision
  · exact .inl (texts.mp equal)
  · exact .inr collision

/-- An integer that has no text leaves a configuration, in whatever order, without an identity. -/
theorem overlong_unidentified :
    Plain (.map [(.text "limit", .int Number.overlong)]) ∧
      Rearranged (.map [(.text "limit", .int Number.overlong)])
        (.map [(.text "limit", .int Number.overlong)]) ∧
      canonicalText (.map [(.text "limit", .int Number.overlong)]) = .error .integerTooLong ∧
      identity (.map [(.text "limit", .int Number.overlong)]) =
        .error (.shape .integerTooLong) := by
  have unwritten : canonicalText (.map [(.text "limit", .int Number.overlong)]) =
      .error .integerTooLong := by
    have members : Json.ofValue (.map [(.text "limit", .int Number.overlong)]) =
        .error .integerTooLong := by
      rw [Json.ofValue_map_eq]
      change ([(Scalar.text "limit", Value.int Number.overlong)].mapM Json.memberOf).map Json.object = _
      rw [List.mapM_cons, Json.memberOf, Json.ofMember, Json.ofValue,
        Json.ofLeaf_of_long Number.isShort_overlong]
      rfl
    rw [canonicalText, Json.write, members]
    rfl
  have plain : Plain (.ofFields [("limit", .int Number.overlong)]) :=
    plain_ofFields (by decide) (List.forall_mem_singleton.mpr (.scalar _))
  refine ⟨plain, .refl _, unwritten, ?_⟩
  simp only [identity, unwritten]

example : [Value.int 1, .float (.ofInt 1), .bool true, .text "1"].map
    (fun value => (canonicalText (.list [value])).toOption) =
    [some "[1]", some "[1.0]", some "[true]", some "[\"1\"]"] := by decide +kernel

def switched : Record :=
  Record.ofFields [("lints", .ofTexts ["-D dead_code"]),
    ("vendor", .ofFields [("enabled", .bool true), ("path", .text "third_party")])]

def reordered : Record :=
  Record.ofFields [
    ("vendor", .ofFields [("path", .text "third_party"), ("enabled", .bool true)]),
    ("lints", .ofTexts ["-D dead_code"])]

theorem switched_identified :
    Plain (.map switched) ∧ Plain (.map reordered) ∧
      Written (.map switched) ∧ Written (.map reordered) ∧
      Rearranged (.map switched) (.map reordered) ∧
      identity (.map switched) = identity (.map reordered) := by
  have lints : (Value.ofTexts ["-D dead_code"]).Storable := .ofTexts _
  have left : (Value.map switched).Storable := by
    apply Storable.ofFields (by decide)
    simp only [List.forall_mem_cons, lints, true_and]
    refine ⟨.ofFields (by decide) ?_, by simp⟩
    simp [Storable.bool, Storable.text]
  have right : (Value.map reordered).Storable := by
    apply Storable.ofFields (by decide)
    simp only [List.forall_mem_cons, lints, true_and]
    refine ⟨.ofFields (by decide) ?_, by simp⟩
    simp [Storable.bool, Storable.text]
  obtain ⟨leftText, rightText, leftShown, rightShown, texts, -, -, kept, -⟩ :=
    canonicalText_identifies left.plain right.plain left.written right.written
  have written : canonicalText (.map switched) = canonicalText (.map reordered) := rfl
  rw [leftShown, rightShown] at written
  have same := texts.mp (Except.ok.inj written)
  exact ⟨left.plain, right.plain, left.written, right.written, same, kept same⟩

end BuildRules.Config
