import VorCommander.Worker.Progress

/-!
A write happens as a whole or not at all.

While nobody else writes, a write that fails or dies has either left its target as it
was, or the target holds the whole content, and then a record of the journal and a
backup tell what was there before. A process that dies within an operation leaves what
an operation leaves that fails.
-/

namespace VorCommander

open Crypto Steps Steps.Program Text WindowsPath Files

namespace Transaction

variable {t : Transaction} {target : String} {content : List UInt8} {s s' : FileSystem}
  {h : History Files}

/-- What can be done without: the target holds its old bytes, or the new content, and
then the old bytes are in a backup of which there is a record. -/
def Recoverable (t : Transaction) (target : String) (content : List UInt8)
    (s s' : FileSystem) : Prop :=
  s' target = s target ∨
    (s' target = some content ∧ t.Recorded (s target) s' ∧ t.BackedUp (s target) s')

theorem Progress.recoverable (hp : t.Progress target content s s' h) :
    t.Recoverable target content s s' := by
  cases hp with
  | untouched unchanged _ _ => exact .inl (congrFun unchanged target)
  | staged hstaged => exact .inl hstaged.kept
  | withdrawn _ _ _ kept => exact .inl kept
  | replaced hreplaced =>
      rcases hreplaced.oldOrNew with hold | hnew
      · exact .inl hold
      · exact .inr ⟨hnew, hreplaced.recorded, hreplaced.backedUp⟩

/-- Before the replacement the target is as it was. -/
theorem Progress.kept (hp : t.Progress target content s s' h) (hbefore : ¬ t.Attempted target h) :
    s' target = s target := by
  cases hp with
  | untouched unchanged _ _ => exact congrFun unchanged target
  | staged hstaged => exact hstaged.kept
  | withdrawn _ _ _ kept => exact kept
  | replaced hreplaced => exact absurd hreplaced.attempted hbefore

end Transaction

namespace FsWorker

/-- Wherever a write stops, its target can be recovered; if it fails before it replaces
its target, that is as it was; and if it succeeds, the target holds the content, the
backup what the target held, and the journal says that the write is committed. -/
theorem write_atomic (P : Primitives) (worker : FsWorker) (authorization : Authorization)
    (content : List UInt8) (requireTargetPrecondition : Bool) (s : FileSystem) :
    (∀ rest s' h, Leads Files.Commit
        (worker.writeInner P authorization content requireTargetPrecondition).run s [] rest s' h →
      s' = s ∨ OfTarget worker authorization h fun t target =>
        t.Recoverable target content s s') ∧
    (∀ e s' h, Runs Files.Commit
        (worker.writeInner P authorization content requireTargetPrecondition).run s []
          (.error e) s' h →
      s' = s ∨ OfTarget worker authorization h fun t target =>
        ¬ t.Attempted target h → s' target = s target) ∧
    ∀ receipt s' h, Runs Files.Commit
        (worker.writeInner P authorization content requireTargetPrecondition).run s []
          (.ok receipt) s' h →
      OfTarget worker authorization h fun t target => t.Finished target content P s s' receipt := by
  have hquiet : Quiet [] := by
    intro e he
    cases he
  have hduring := during_writeInner worker authorization content requireTargetPrecondition
    (P := P) (s := s) hquiet
  refine ⟨?_, ?_, ?_⟩
  · intro rest s' h hleads
    obtain ⟨⟨hs, -⟩ | hof, -⟩ := hleads.during hduring (.inl ⟨rfl, hquiet⟩)
    · exact .inl hs
    · exact .inr (hof.imp fun t target hprogress => hprogress.recoverable)
  · intro e s' h hruns
    obtain ⟨⟨hs, -⟩ | hof, -⟩ := hruns.during hduring
    · exact .inl hs
    · exact .inr (hof.imp fun t target hprogress => hprogress.kept)
  · intro receipt s' h hruns
    exact (hruns.during hduring).2 receipt rfl

end FsWorker

end VorCommander
