import RevenueRecovery.Store

/-!
# The attempt registry

An attempt is registered once. Whatever is registered later under the same key, also by
transactions that run at the same time, the first row stays the one that is found.

## Main definitions
* `KeepsRegistry` : a later store finds the rows that the earlier one finds.
* `Registered` : the attempt is registered under the provider.
-/
namespace RevenueRecovery

open Transaction

/-- The registration a write makes, unless the key is known. -/
def Write.registration? : Write → Option RegisteredAttempt
  | .registerAttempt row => some row
  | _ => none

theorem mem_filterMap_registration? {ws : List Write} {row : RegisteredAttempt} :
    row ∈ ws.filterMap Write.registration? ↔ .registerAttempt row ∈ ws := by
  rw [List.mem_filterMap]
  constructor
  · rintro ⟨w, hw, hrow⟩
    cases w <;> simp only [Write.registration?, Option.some.injEq, reduceCtorEq] at hrow
    exact hrow ▸ hw
  · exact fun h => ⟨_, h, rfl⟩

/-- The row of a key is the stored one, or else the first that the writes register. -/
theorem Database.findAttempt_foldl (db : Database) (ws : List Write) (key : String) :
    (ws.foldl Database.apply db).findAttempt key = (db.findAttempt key).or
      ((ws.filterMap Write.registration?).find? fun row => row.paymentAttemptId = key) := by
  induction ws generalizing db with
  | nil => simp
  | cons w ws ih =>
      rw [List.foldl_cons, ih]
      cases w with
      | registerAttempt row =>
          simp only [Database.apply, List.filterMap_cons, Write.registration?]
          cases hrow : db.findAttempt row.paymentAttemptId with
          | some old =>
              rw [if_pos (by simp)]
              by_cases hkey : row.paymentAttemptId = key
              · subst hkey
                simp [hrow]
              · rw [List.find?_cons_of_neg (by simpa using hkey)]
          | none =>
              rw [if_neg (by simp)]
              by_cases hkey : row.paymentAttemptId = key
              · subst hkey
                rw [List.find?_cons_of_pos (by simp), hrow, Option.none_or]
                unfold Database.findAttempt at hrow ⊢
                simp [List.find?_append, hrow]
              · rw [List.find?_cons_of_neg (by simpa using hkey)]
                unfold Database.findAttempt
                simp [List.find?_append, hkey]
      | _ => rfl

/-- A later store finds the rows that the earlier one finds. -/
def KeepsRegistry (db db' : Database) : Prop :=
  ∀ key row, db.findAttempt key = some row → db'.findAttempt key = some row

namespace KeepsRegistry

theorem refl (db : Database) : KeepsRegistry db db := fun _ _ h => h

theorem trans {a b c : Database} (h : KeepsRegistry a b) (h' : KeepsRegistry b c) :
    KeepsRegistry a c := fun key row hrow => h' key row (h key row hrow)

theorem foldl (db : Database) (ws : List Write) :
    KeepsRegistry db (ws.foldl Database.apply db) := by
  intro key row hrow
  rw [Database.findAttempt_foldl, hrow, Option.some_or]

/-- Writes that register nothing change nothing for those that follow. -/
theorem foldl_of_none (db : Database) {ws : List Write}
    (hws : ws.filterMap Write.registration? = []) (vs : List Write) :
    KeepsRegistry (vs.foldl Database.apply db)
      (vs.foldl Database.apply (ws.foldl Database.apply db)) := by
  intro key row hrow
  rw [Database.findAttempt_foldl] at hrow
  rw [Database.findAttempt_foldl, Database.findAttempt_foldl, hws]
  simpa using hrow

/-- Writes that do not compete do not register one key: one waits for the other. -/
theorem foldl_of_apart (db : Database) {ws vs : List Write}
    (h : ∀ a ∈ ws, ∀ b ∈ vs, a.clashes b = false) :
    KeepsRegistry (vs.foldl Database.apply db)
      (vs.foldl Database.apply (ws.foldl Database.apply db)) := by
  intro key row hrow
  rw [Database.findAttempt_foldl] at hrow ⊢
  rw [Database.findAttempt_foldl]
  cases hdb : db.findAttempt key with
  | some old => simpa [hdb] using hrow
  | none =>
      rw [hdb, Option.none_or] at hrow
      have hrowkey : row.paymentAttemptId = key := by simpa using List.find?_some hrow
      have hmem := mem_filterMap_registration?.mp (List.mem_of_find?_eq_some hrow)
      have hnone : ((ws.filterMap Write.registration?).find?
          fun row => row.paymentAttemptId = key) = none := by
        refine List.find?_eq_none.mpr fun other hother hkey => ?_
        have hclash := h _ (mem_filterMap_registration?.mp hother) _ hmem
        have hkey' : other.paymentAttemptId = key := by simpa using hkey
        simp [Write.clashes, hkey', hrowkey] at hclash
      rw [hnone, Option.none_or, Option.none_or, hrow]

/-- So sessions that are apart keep each other's registrations. -/
theorem apart {Lock Effect Proc Input Arrival : Type}
    {P : Program Database Write Lock Effect Proc Input Arrival} (ha : P.apply = Database.apply)
    (hc : P.clashes = Write.clashes) {s t : Session Database Write Lock Proc} (db : Database)
    (h : Apart P s t) : KeepsRegistry (P.view db t) (P.view (P.view db s) t) := by
  simp only [Program.view, Program.applyAll, ha]
  exact foldl_of_apart db (hc ▸ h.pending)

end KeepsRegistry

/-- The attempt is registered under the provider. -/
def Registered (db : Database) (sourceSystem paymentAttemptId : String) : Prop :=
  ∃ row, db.findAttempt paymentAttemptId = some row ∧ row.sourceSystem = sourceSystem

section Registered
variable {db db' : Database} {sourceSystem paymentAttemptId : String}

theorem Registered.mono (h : Registered db sourceSystem paymentAttemptId)
    (hkeeps : KeepsRegistry db db') : Registered db' sourceSystem paymentAttemptId := by
  obtain ⟨row, hrow, hsource⟩ := h
  exact ⟨row, hkeeps _ _ hrow, hsource⟩

/-- An attempt has one provider. -/
theorem Registered.source_eq {other : String} (h : Registered db sourceSystem paymentAttemptId)
    (h' : Registered db other paymentAttemptId) : sourceSystem = other := by
  obtain ⟨row, hrow, rfl⟩ := h
  obtain ⟨row', hrow', rfl⟩ := h'
  rw [Option.some.inj (hrow.symm.trans hrow')]

theorem Registered.registeredUnder (h : Registered db sourceSystem paymentAttemptId) :
    db.registeredUnder sourceSystem paymentAttemptId = true := by
  obtain ⟨row, hrow, hsource⟩ := h
  have hkey : row.paymentAttemptId = paymentAttemptId := by simpa using List.find?_some hrow
  exact List.any_eq_true.mpr ⟨row, List.mem_of_find?_eq_some hrow, by simp [hkey, hsource]⟩

/-- What `require` accepts is registered. -/
theorem registered_of_require {ref : AttemptRef} {row : RegisteredAttempt}
    (h : db.require ref = .ok row) : Registered db ref.sourceSystem ref.paymentAttemptId := by
  unfold Database.require at h
  split at h
  · cases h
  · rename_i found hfound
    split at h
    · cases h
    · rename_i hmatch
      exact ⟨found, hfound, by simpa using fun hne => hmatch (.inl hne)⟩

theorem registered_of_requireKey {row : RegisteredAttempt}
    (h : db.requireKey sourceSystem paymentAttemptId = .ok row) :
    Registered db sourceSystem paymentAttemptId := by
  unfold Database.requireKey at h
  cases href : AttemptRef.forKey sourceSystem paymentAttemptId with
  | error e => simp [href, bind, Except.bind] at h
  | ok ref =>
      simp only [href, bind, Except.bind] at h
      obtain ⟨hsource, hkey⟩ := AttemptRef.forKey_ok href
      exact hsource ▸ hkey ▸ registered_of_require h

end Registered

end RevenueRecovery
