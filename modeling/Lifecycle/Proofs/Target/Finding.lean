import Lifecycle.Proofs.Ascending
import Lifecycle.Proofs.Keyed
import Lifecycle.Proofs.Store.Rows
import Lifecycle.Proofs.Target.Outline

/-!
# Who is found

Those that are found in a status since a time are in that status, and have been since then or longer; and each is found once.
In a table the time is asked for in whole milliseconds, rounded down, which makes no difference as long as the times of changes
are whole milliseconds.
-/

namespace Lifecycle.Target

open Time (Instant)

variable {status id : String} {before : Instant} {ids : List String}

theorem HostRows.get_eq_ok_iff {rows : HostRows} (distinct : (rows.map (·.id)).Nodup) {r : HostRow} :
    rows.get id = .ok r ↔ r ∈ rows ∧ r.id = id := by
  refine ⟨HostRows.mem_of_get, fun h => ?_⟩
  unfold HostRows.get
  rw [(find?_key_iff distinct).2 h]

/-- Those found are in the status since the time, and no one else is. -/
theorem Memory.mem_found {m : Memory} (distinct : (m.map (·.1)).Nodup)
    (h : (m.answer (.find status before)).1 = .ok ids) : ids.Nodup ∧
      ∀ id, id ∈ ids ↔ (m.answer (.status id)).1 = .ok (some status) ∧
        ∃ t : Instant, (m.answer (.changedAt id)).1 = .ok (some t) ∧ t ≤ before := by
  obtain rfl : (m.filter fun p => p.2.status == some status && p.2.changedAt.any (· ≤ before)).map (·.1) = ids :=
    Except.ok.inj h
  refine ⟨distinct.sublist (List.filter_sublist.map _), fun id => ?_⟩
  have hmem : id ∈ (m.filter fun p => p.2.status == some status && p.2.changedAt.any (· ≤ before)).map (·.1) ↔
      ∃ e, m.lookup id = some e ∧ e.status = some status ∧ ∃ t : Instant, e.changedAt = some t ∧ t ≤ before := by
    simp [lookup_eq_some_iff distinct, Option.any_eq_true]
  rw [hmem]
  show _ ↔ m.read id (·.status) = .ok (some status) ∧ ∃ t : Instant, m.read id (·.changedAt) = .ok (some t) ∧ t ≤ before
  unfold Memory.read
  cases m.lookup id with
  | none => simp
  | some e => simp

/-- A row is found if its time has come. -/
theorem HostRows.mem_inStatusSince {rows : HostRows} {before : Int} : id ∈ rows.inStatusSince status before ↔
    ∃ r ∈ rows, r.id = id ∧ r.status = some status ∧ ∃ c, r.changedAt = some c ∧ c.le (.int before) = true := by
  unfold HostRows.inStatusSince
  simp only [List.mem_map, List.mem_mergeSort, List.mem_filterMap]
  constructor
  · rintro ⟨⟨c, i⟩, ⟨r, hr, hfound⟩, rfl⟩
    split at hfound
    · split at hfound <;> cases hfound
      rename_i hchanged hstuck
      obtain ⟨hstatus, hle⟩ := Bool.and_eq_true_iff.1 hstuck
      exact ⟨r, hr, rfl, beq_iff_eq.1 hstatus, c, hchanged, hle⟩
    · cases hfound
  · rintro ⟨r, hr, rfl, hstatus, c, hchanged, hle⟩
    refine ⟨(c, r.id), ⟨r, hr, ?_⟩, rfl⟩
    rw [hchanged]
    simp [hstatus, hle]

theorem HostRows.nodup_inStatusSince {rows : HostRows} (distinct : (rows.map (·.id)).Nodup) (status : String)
    (before : Int) : (rows.inStatusSince status before).Nodup := by
  unfold HostRows.inStatusSince
  refine ((List.mergeSort_perm _ _).map _).nodup_iff.2 (List.pairwise_map.2 (List.pairwise_filterMap.2 ?_))
  refine (List.pairwise_map.1 distinct).imp fun {r u} hne p hp q hq hsame => hne ?_
  split at hp
  · split at hp <;> cases hp
    split at hq
    · split at hq <;> cases hq
      exact hsame
    · cases hq
  · cases hp

theorem HostRow.changed?_of_int {r : HostRow} {n : Int} (h : r.changedAt = some (.int n)) :
    r.changed? = .ok (Instant.ofMillis? n) := by
  unfold HostRow.changed?
  rw [h]
  rfl

theorem HostRow.changed?_of_none {r : HostRow} (h : r.changedAt = none) : r.changed? = .ok none := by
  unfold HostRow.changed?
  rw [h]
  rfl

theorem HostRow.changed?_eq_some {r : HostRow} {t : Instant} (h : r.changed? = .ok (some t)) :
    ∃ n, r.changedAt = some (.int n) ∧ Instant.ofMillis? n = some t := by
  cases hc : r.changedAt with
  | none =>
    rw [changed?_of_none hc] at h
    cases h
  | some c =>
    cases c with
    | int n =>
      rw [changed?_of_int hc] at h
      exact ⟨n, rfl, Except.ok.inj h⟩
    | _ =>
      unfold changed? at h
      rw [hc] at h
      cases h

/-- A row whose time can be told is found if it is in the status, and its time has come. -/
theorem HostRows.mem_inStatusSince_of_changed {rows : HostRows} (distinct : (rows.map (·.id)).Nodup) {t : Instant}
    (h : (rows.answer (.changedAt id)).1 = .ok (some t)) : id ∈ rows.inStatusSince status before.floorMillis ↔
      (rows.answer (.status id)).1 = .ok (some status) ∧ t ≤ before := by
  obtain ⟨r, hget, hread⟩ := bind_ok h
  obtain ⟨n, hcell, hmillis⟩ := HostRow.changed?_eq_some hread
  have hstatus : (rows.answer (.status id)).1 = .ok r.status := by
    show (rows.get id).map (·.status) = _
    rw [hget]
    rfl
  have hcome : Store.Cell.le (.int n) (.int before.floorMillis) = true ↔ t ≤ before := by
    rw [← Instant.le_floorMillis_iff hmillis before]
    simp
  rw [HostRows.mem_inStatusSince, hstatus]
  constructor
  · rintro ⟨u, hu, hid, hu', c, hc, hle⟩
    obtain rfl : r = u := Except.ok.inj (hget.symm.trans ((HostRows.get_eq_ok_iff distinct).2 ⟨hu, hid⟩))
    obtain rfl : .int n = c := Option.some.inj (hcell.symm.trans hc)
    exact ⟨congrArg Except.ok hu', hcome.1 hle⟩
  · rintro ⟨hu', hle⟩
    obtain ⟨hr, hid⟩ := HostRows.mem_of_get hget
    exact ⟨r, hr, hid, Except.ok.inj hu', _, hcell, hcome.2 hle⟩

theorem HostRows.mem_found {rows : HostRows} (distinct : (rows.map (·.id)).Nodup)
    (timely : ∀ r ∈ rows, ∀ c ∈ r.changedAt, ∃ n, c = .int n ∧ Store.IsTime n)
    (h : (rows.answer (.find status before)).1 = .ok ids) : ids.Nodup ∧
      ∀ id, id ∈ ids ↔ (rows.answer (.status id)).1 = .ok (some status) ∧
        ∃ t : Instant, (rows.answer (.changedAt id)).1 = .ok (some t) ∧ t ≤ before := by
  obtain rfl : rows.inStatusSince status before.floorMillis = ids := Except.ok.inj h
  refine ⟨HostRows.nodup_inStatusSince distinct _ _, fun id => ⟨fun hfound => ?_, ?_⟩⟩
  · obtain ⟨r, hr, hid, -, c, hchanged, -⟩ := HostRows.mem_inStatusSince.1 hfound
    obtain ⟨n, rfl, t, ht⟩ := timely r hr c hchanged
    have htold : (rows.answer (.changedAt id)).1 = .ok (some t) := by
      show (rows.get id).bind (·.changed?) = _
      rw [(HostRows.get_eq_ok_iff distinct).2 ⟨hr, hid⟩]
      exact (HostRow.changed?_of_int hchanged).trans (congrArg Except.ok ht)
    obtain ⟨hstatus, hle⟩ := (HostRows.mem_inStatusSince_of_changed distinct htold).1 hfound
    exact ⟨hstatus, t, htold, hle⟩
  · rintro ⟨hstatus, t, htold, hle⟩
    exact (HostRows.mem_inStatusSince_of_changed distinct htold).2 ⟨hstatus, hle⟩

end Lifecycle.Target
