import Fitz.Proof.Wiring

/-!
# The registry and its restore

The registry, the snapshot a restore takes of it and the cells of the handles, as
one record. `booked_step`: what a step of the connection does to it. It is the one
case analysis the invariants of registrations are proved from.
-/

namespace Fitz

/-- The part of a connection that has to do with registrations. -/
structure Book where
  nextCell : Cell
  registrations : HashMap UInt64 Registration
  todo : List Registration
  current : Option Registration
  held : Cell → Option (ℕ × Registration)
  wireIds : Cell → UInt64

namespace Conn

variable {cfg : Config} {s : Conn}

def book (s : Conn) : Book :=
  ⟨s.nextCell, s.registrations, s.todo, s.current, s.held, s.wireIds⟩

/-- The book after the event `e` in `s`. -/
inductive Booked (s : Conn) (e : Event) : Book → Prop
  | kept : Booked s e s.book
  | registered {messageType : UInt16} {payload : Bytes} {wireId : UInt64}
      {decoder : Bytes → Result UInt64} (he : e = .register messageType payload wireId decoder) :
      Booked s e { s.book with
        nextCell := s.nextCell + 1
        registrations := s.registrations.insert s.nextRegistrationId
          ⟨messageType, payload, s.nextCell, decoder⟩
        wireIds := Function.update s.wireIds s.nextCell wireId }
  | deactivated {key : UInt64} (he : e = .deactivate key) :
      Booked s e { s.book with registrations := s.registrations.erase key }
  | collected (he : e = .advance) (hpc : s.pc = .opened) :
      Booked s e { s.book with
        todo := s.registrations.entries.map fun e => e.2
        current := none }
  | replayed {cell : Cell} {written : Result Unit} {r : Registration}
      {current : Option Registration} (he : e = .restoreNext cell written)
      (hfind : s.todo.find? (·.wireId = cell) = some r)
      (hcur : current = s.current ∨ current = some r) :
      Booked s e { s.book with
        todo := s.todo.eraseP (·.wireId = cell)
        current := current }
  | given (he : e = .restoreFail ∨ ∃ frame answers, e = .restoreRead frame answers) :
      Booked s e { s.book with current := none }
  | answered {frame : Bytes} {answers : Option ℕ} {header : FrameHeader} {r : Registration}
      {wireId : UInt64} (he : e = .restoreRead frame answers) (hpc : s.pc = .restoring)
      (hcur : s.current = some r) (hh : decodeFrameHeader frame = .ok header)
      (htype : header.messageType = r.messageType)
      (hdec : r.decoder (frame.drop header.payloadStart) = .ok wireId) :
      Booked s e { s.book with
        current := none
        wireIds := Function.update s.wireIds r.wireId wireId
        held := Function.update s.held r.wireId (some (s.serial, r)) }

theorem booked_step (cfg : Config) (s : Conn) (e : Event) : Booked s e (s.step cfg e).book := by
  cases e with
  | register => exact .registered rfl
  | deactivate => exact .deactivated rfl
  | advance =>
    have ha := advance_advanced cfg s
    simp only [step]
    generalize s.advance cfg = s' at ha
    cases ha with
    | collect hpc => exact .collected rfl hpc
    | _ => exact .kept
  | restoreNext cell written =>
    simp only [step, restoreNext]
    split
    · rename_i r hpc hcur hfind
      split
      · exact .replayed rfl hfind (.inl rfl)
      · split
        · exact .replayed rfl hfind (.inr rfl)
        · exact .replayed rfl hfind (.inl rfl)
    · exact .kept
  | restoreRead frame answers =>
    simp only [step, restoreRead]
    split
    · rename_i r hpc hcur
      split
      · exact .given (.inr ⟨frame, answers, rfl⟩)
      · rename_i header hh
        split
        · rename_i htype
          split
          · exact .given (.inr ⟨frame, answers, rfl⟩)
          · rename_i wireId hdec
            exact .answered rfl hpc hcur hh htype hdec
        · -- a notification: the round trip goes on
          exact .kept
    · exact .kept
  | restoreFail =>
    simp only [step, restoreFail]
    split
    · exact .given (.inl rfl)
    · exact .kept
  | allocate kind messageType payload =>
    simp only [step, allocate]
    split <;> exact .kept
  | command written | cancel | inbound frame answers written | readError | hangup | stamp t
  | enqueue t | resume t | abandon t | receive | dial result | restored | requestClose | auth answer
  | connect | close =>
    simp only [step, command, cancel, inbound, readError, hangup, turn_eq, stamp, enqueue, resume,
      abandon, dropGuard, receive, dial, restored, requestClose, auth, push]
    repeat' split
    all_goals exact .kept
  | token | wake => exact .kept

/-- Cells are handed out in order. -/
theorem nextCell_step (s : Conn) (e : Event) : s.nextCell ≤ (s.step cfg e).nextCell := by
  have hb := booked_step cfg s e
  change s.nextCell ≤ (s.step cfg e).book.nextCell
  generalize (s.step cfg e).book = b at hb
  cases hb with
  | registered => exact Nat.le_succ _
  | _ => exact le_rfl

/-! ## Registrations -/

/-- The registrations a restore may still set a cell for. -/
def Known (s : Conn) (r : Registration) : Prop :=
  (∃ e ∈ s.registrations.entries, r = e.2) ∨ r ∈ s.todo ∨ r ∈ s.current

/-- Registrations come from `register_restorable`, with a new cell. -/
theorem known_step {e : Event} {r : Registration} (h : Known (s.step cfg e) r) :
    Known s r ∨ ∃ messageType payload wireId decoder,
      e = .register messageType payload wireId decoder ∧ r.wireId = s.nextCell := by
  have hb := booked_step cfg s e
  change (∃ e' ∈ (s.step cfg e).book.registrations.entries, r = e'.2) ∨
    r ∈ (s.step cfg e).book.todo ∨ r ∈ (s.step cfg e).book.current at h
  generalize (s.step cfg e).book = b at hb h
  cases hb with
  | kept => exact .inl h
  | registered he =>
    rcases h with ⟨entry, hentry, rfl⟩ | h
    · rw [AList.entries_insert, List.mem_cons] at hentry
      rcases hentry with rfl | hentry
      · exact .inr ⟨_, _, _, _, he, rfl⟩
      · exact .inl (.inl ⟨entry, (List.kerase_sublist _ _).subset hentry, rfl⟩)
    · exact .inl (.inr h)
  | deactivated =>
    rcases h with ⟨entry, hentry, rfl⟩ | h
    · exact .inl (.inl ⟨entry, (List.kerase_sublist _ _).subset hentry, rfl⟩)
    · exact .inl (.inr h)
  | collected =>
    rcases h with h | h | h
    · exact .inl (.inl h)
    · obtain ⟨entry, hentry, rfl⟩ := List.mem_map.1 h
      exact .inl (.inl ⟨entry, hentry, rfl⟩)
    · cases h
  | replayed _ hfind hcur =>
    rcases h with h | h | h
    · exact .inl (.inl h)
    · exact .inl (.inr (.inl (List.eraseP_sublist.subset h)))
    · rcases hcur with rfl | rfl
      · exact .inl (.inr (.inr h))
      · cases h
        exact .inl (.inr (.inl (List.mem_of_find?_eq_some hfind)))
  | given | answered =>
    rcases h with h | h | h
    · exact .inl (.inl h)
    · exact .inl (.inr (.inl h))
    · cases h

/-- A cell is set when it is made and by the restore of its registration. -/
theorem cell_step (cfg : Config) (e : Event) {cell : Cell} (hcell : cell < s.nextCell) :
    ((s.step cfg e).held cell = s.held cell ∧ (s.step cfg e).wireIds cell = s.wireIds cell) ∨
      ∃ r, Known s r ∧ r.wireId = cell ∧ (s.step cfg e).held cell = some (s.serial, r) := by
  have hb := booked_step cfg s e
  change ((s.step cfg e).book.held cell = s.held cell ∧
    (s.step cfg e).book.wireIds cell = s.wireIds cell) ∨
      ∃ r, Known s r ∧ r.wireId = cell ∧ (s.step cfg e).book.held cell = some (s.serial, r)
  generalize (s.step cfg e).book = b at hb
  cases hb with
  | registered => exact .inl ⟨rfl, Function.update_of_ne (Nat.ne_of_lt hcell) ..⟩
  | @answered _ _ _ r _ _ _ hcur =>
    by_cases hr : cell = r.wireId
    · subst hr
      exact .inr ⟨r, .inr (.inr hcur), rfl, Function.update_self ..⟩
    · exact .inl ⟨Function.update_of_ne hr .., Function.update_of_ne hr ..⟩
  | _ => exact .inl ⟨rfl, rfl⟩

end Conn

end Fitz
