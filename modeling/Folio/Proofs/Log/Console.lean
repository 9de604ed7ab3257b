import Folio.Log.Loggers

/-!
# Logging to the console

As long as no handler writes to a file, delivering records leaves the file system alone
(`deliverAll_tree`). Asking for a logger and changing a level bring in none that does.
-/

namespace Folio.Log

/-- A logger writes to the console only. -/
def Logger.OnConsole (l : Logger) : Prop := ∀ h ∈ l.handlers, h.outlet = .console

namespace Loggers

variable {ls : Loggers} {l : Logger} {name : String}

/-- All loggers write to the console only. -/
structure OnConsole (ls : Loggers) : Prop where
  root : ls.root.OnConsole
  members : ∀ m ∈ ls.members, m.logger.OnConsole

namespace OnConsole

theorem initial : Loggers.initial.OnConsole := ⟨nofun, nofun⟩

/-- The logger of a name, whether it has been asked for or not. -/
theorem find (h : ls.OnConsole) (name : String) : (ls.find name).OnConsole := by
  unfold Loggers.find
  split
  · exact h.root
  · cases hm : ls.member? name with
    | none => exact nofun
    | some m => exact h.members m (List.mem_of_find?_eq_some hm)

/-! ## Setting up -/

theorem set (h : ls.OnConsole) (hl : l.OnConsole) (name : String) : (ls.set name l).OnConsole := by
  unfold Loggers.set
  split
  · exact ⟨hl, h.members⟩
  split
  · refine ⟨h.root, fun m hm => ?_⟩
    obtain ⟨old, hold, rfl⟩ := List.mem_map.1 hm
    split
    · exact hl
    · exact h.members old hold
  · refine ⟨h.root, fun m hm => ?_⟩
    rcases List.mem_append.1 hm with hbelow | hnew
    · obtain ⟨old, hold, rfl⟩ := List.mem_map.1 hbelow
      split <;> exact h.members old hold
    · cases List.mem_singleton.1 hnew
      exact hl

theorem get (h : ls.OnConsole) (name : String) (level : Option Level) :
    (ls.get name level).OnConsole := by
  unfold Loggers.get
  dsimp only
  split
  · exact h.set (fun handler hhandler => by rw [List.mem_singleton.1 hhandler]) name
  · exact h.set (h.find name) name

theorem setLevel (h : ls.OnConsole) (level : Level) : (ls.setLevel level).OnConsole := by
  refine h.set (fun handler hhandler => ?_) packageLogger
  obtain ⟨old, hold, rfl⟩ := List.mem_map.1 hhandler
  split <;> exact h.find packageLogger old hold

/-! ## Delivery -/

/-- Every logger that a record meets. -/
theorem wayUp (h : ls.OnConsole) (name : String) : ∀ l ∈ ls.wayUp name, l.OnConsole := by
  intro l hl
  unfold Loggers.wayUp at hl
  split at hl
  · exact List.mem_singleton.1 hl ▸ h.root
  · simp only [List.cons_append, List.mem_cons, List.mem_append, List.mem_map, List.not_mem_nil,
      or_false] at hl
    obtain rfl | ⟨above, -, rfl⟩ | rfl := hl
    · exact h.find name
    · exact h.find above
    · exact h.root

/-- Handlers on the console leave the file system alone. -/
theorem foldl_handle_tree (r : Record) :
    ∀ {handlers : List Handler}, (∀ h ∈ handlers, h.outlet = .console) →
      ∀ out, (handlers.foldl (handle r) out).2 = out.2
  | [], _, out => rfl
  | h :: handlers, hconsole, out => by
    rw [List.forall_mem_cons] at hconsole
    rw [List.foldl_cons, foldl_handle_tree r hconsole.2, handle, hconsole.1]
    split <;> rfl

theorem deliver_tree (h : ls.OnConsole) (r : Record) (out : String × FileTree) :
    (ls.deliver r out).2 = out.2 := by
  unfold deliver
  split
  · rfl
  split
  · split <;> rfl
  · refine foldl_handle_tree r (fun handler hhandler => ?_) out
    obtain ⟨l, hl, hhandler⟩ := List.mem_flatMap.1 hhandler
    exact h.wayUp r.logger l hl handler hhandler

/-- **Loggers on the console** leave the file system alone, whatever is delivered. -/
theorem deliverAll_tree (h : ls.OnConsole) :
    ∀ (records : List Record) (out : String × FileTree), (ls.deliverAll records out).2 = out.2
  | [], _ => rfl
  | r :: records, out => (deliverAll_tree h records _).trans (h.deliver_tree r out)

end OnConsole

end Loggers

end Folio.Log
