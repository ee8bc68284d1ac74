namespace BuildRules.Distinct

/-- An item with a new key may be added at the end. -/
theorem nodup_append {α β : Type} [DecidableEq β] {key : α → β} {items : List α} {item : α}
    (distinct : (items.map key).Nodup) (fresh : ¬ (items.map key).contains (key item)) :
    ((items ++ [item]).map key).Nodup := by
  have missing : key item ∉ items.map key := by simpa using fresh
  rw [List.map_append]
  refine List.nodup_append.mpr ⟨distinct, by simp, ?_⟩
  intro value member other single
  rintro rfl
  simp only [List.map_cons, List.map_nil, List.mem_singleton] at single
  exact missing (single ▸ member)

end BuildRules.Distinct
