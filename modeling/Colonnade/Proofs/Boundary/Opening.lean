/-
Opening a session without a place for it. The session is opened, and freed
again before the caller is told. What the host holds by then is what it held
before: the engine had one owner and no transaction, so it is gone with the
session, and no step on the way touches another engine.

Chain: `Boundary.Rejected` has the calls on a session that is open.
-/
import Colonnade.Boundary.Hosted
import Colonnade.Proofs.Edit
import Colonnade.Proofs.OrderedMap

namespace Colonnade

variable {h h' : Host} {α : Type}

-- ========================================================== the engines

/-- Whether a host holds the engines of another, and gives the same number
next. -/
structure Host.Keeps (h h' : Host) : Prop where
  engines_eq : ∀ n : Nat, h'.engines[n]? = h.engines[n]?
  nextNumber_eq : h'.nextNumber = h.nextNumber

/-- Whether a host holds, besides the engines of another, one with a single
owner and no transactions, under the number that the other gives next. -/
structure Host.Gained (h : Host) (number : Nat) (h' : Host) : Prop where
  number_eq : number = h.nextNumber
  found : ∃ o : OpenEngine, o.owners = 1
    ∧ o.engine.transactions.isEmpty = true
    ∧ ∀ n : Nat, h'.engines[n]?
      = if n = number then some o else h.engines[n]?

namespace Host

theorem Keeps.refl (h : Host) : h.Keeps h := ⟨fun _ => rfl, rfl⟩

/-- Keeping a store keeps the engines. -/
theorem keeps_keep (medium : Medium) (store : Store) (switch : Option Nat)
    (hkeeps : h.Keeps h') :
    h.Keeps (keepSwitch switch store (keep medium store h')) := by
  have hkeep : h.Keeps (keep medium store h') := by
    cases medium <;> exact ⟨hkeeps.engines_eq, hkeeps.nextNumber_eq⟩
  unfold keepSwitch
  split
  · exact ⟨hkeep.engines_eq, hkeep.nextNumber_eq⟩
  · exact hkeep

/-- What is done on the volume keeps the engines. -/
theorem keeps_onVolume (e : VolumeEdit α) :
    Edit.Preserves h.Keeps (onVolume e) := by
  intro h' hkeeps
  unfold onVolume
  dsimp only [EStateM.run]
  cases e h'.volume with
  | ok a volume => exact ⟨hkeeps.engines_eq, hkeeps.nextNumber_eq⟩
  | error fault volume => exact ⟨hkeeps.engines_eq, hkeeps.nextNumber_eq⟩

/-- A new engine is gained, with one owner and no transactions. -/
theorem gains_addEngine {o : OpenEngine} (howners : o.owners = 1)
    (hempty : o.engine.transactions.isEmpty = true) :
    Edit.Ends h.Keeps (addEngine o) h.Gained h.Keeps := by
  intro h' hkeeps
  refine ⟨hkeeps.nextNumber_eq, o, howners, hempty, fun n => ?_⟩
  refine (OrderedMap.getElem?_insert ..).trans ?_
  rw [hkeeps.engines_eq]

/-- Opening over a store gains an engine or keeps those that are there. -/
theorem gains_openOver (store : Store) (config : Config) (medium : Medium)
    (switch : Option Nat) (claim : Option Claim) :
    Edit.Ends h.Keeps (openOver store config medium switch claim) h.Gained
      h.Keeps := by
  have hidle (engine : Engine)
      (hopened : (Engine.openOver store config).1 = .ok engine) :
      engine.transactions.isEmpty = true := by
    unfold Engine.openOver at hopened
    split at hopened
    · cases hopened
      rfl
    · cases hopened
  unfold openOver
  rcases hopen : Engine.openOver store config with ⟨opened, store'⟩
  rw [hopen] at hidle
  refine Edit.Ends.bind (Q := fun _ => h.Keeps)
    (.modify fun h' => keeps_keep medium store' switch) fun _ => ?_
  cases opened with
  | ok engine => exact gains_addEngine rfl (hidle engine rfl)
  | error err => exact .throw fun _ hkeeps => hkeeps

section Checks

variable {β : Type} {P E : Host → Prop} {Q : β → Host → Prop}
  {c d : Prop} [Decidable c] [Decidable d]

/-- A refusal fails where it stands, and otherwise things go on. -/
theorem ends_unless {err : Error} {go : Edit Host β}
    (hfail : ∀ h, P h → E h) (hgo : Edit.Ends P go Q E) :
    Edit.Ends P (if c then do let _ ← (throw err : Edit Host α); go else go)
      Q E := by
  split
  · exact hfail
  · exact hgo

/-- The same where something is made first if it is missing. -/
theorem ends_making {err : Error} {make : Edit Host Unit}
    {go : Edit Host β} (hfail : ∀ h, P h → E h)
    (hmake : Edit.Ends P make (fun _ => P) E) (hgo : Edit.Ends P go Q E) :
    Edit.Ends P
      (if c then
        if d then do let _ ← (throw err : Edit Host α); make; go
        else do make; go
      else go) Q E := by
  split
  · exact ends_unless hfail (hmake.bind fun _ => hgo)
  · exact hgo

end Checks

/-- Claiming a directory keeps the engines. -/
theorem keeps_claimDirectory (path : String) (createIfMissing : Bool) :
    Edit.Preserves h.Keeps (claimDirectory path createIfMissing) := by
  unfold claimDirectory
  refine Edit.Ends.get_bind fun h' hkeeps =>
    Edit.Preserves.of_eq ?_ hkeeps
  refine ends_making (fun _ hk => hk) (keeps_onVolume _) ?_
  refine Edit.Ends.get_bind fun h' hkeeps =>
    Edit.Preserves.of_eq ?_ hkeeps
  refine ends_unless (fun _ hk => hk) ?_
  refine Edit.Ends.bind (keeps_onVolume _) fun opened => ?_
  refine Edit.Ends.get_bind fun h' hkeeps =>
    Edit.Preserves.of_eq ?_ hkeeps
  refine ends_unless (fun _ hk => hk) ?_
  refine Edit.Ends.bind (Q := fun _ => h.Keeps) ?_ fun _ => ?_
  · exact .modify fun _ hk => ⟨hk.engines_eq, hk.nextNumber_eq⟩
  · exact .pure fun _ hk => hk

/-- Opening a claimed history gains an engine or keeps those that are there.
-/
theorem gains_openHistory (claim : Claim) (config : Config) :
    Edit.Ends h.Keeps (openHistory claim config) h.Gained h.Keeps := by
  unfold openHistory
  refine Edit.Ends.get_bind fun h' hkeeps => ?_
  have hat {s : Host} (hs : s = h') : h.Keeps s := hs ▸ hkeeps
  dsimp only
  refine ends_unless (fun _ hs => hat hs) ?_
  refine ends_unless (fun _ hs => hat hs) ?_
  refine Edit.Ends.bind ((keeps_onVolume _).of_eq hkeeps) fun opened => ?_
  exact gains_openOver _ config _ none _

/-- Whether opening a directory works or not, no other engine is touched. -/
theorem gains_openDirectory (path : String) (config : Config) :
    Edit.Ends h.Keeps (openDirectory path config) h.Gained h.Keeps := by
  refine Edit.Ends.bind (keeps_claimDirectory path _) fun claim => ?_
  refine Edit.Ends.bind (gains_openHistory claim config).attempt
    fun outcome => ?_
  cases outcome with
  | ok n => exact .pure fun _ hgained => hgained
  | error err =>
      refine Edit.Ends.bind (Q := fun _ => h.Keeps) ?_ fun _ => ?_
      · exact .modify fun _ hk => ⟨hk.engines_eq, hk.nextNumber_eq⟩
      · exact .throw fun _ hk => hk

-- ============================================================= freeing

/-- Whether a host holds what another held under every number that has been
given, and nothing under the others that was not there. -/
def Spares (h h' : Host) : Prop :=
  ∀ n : Nat, n < h.nextNumber ∨ h.engines[n]? = none →
    h'.engines[n]? = h.engines[n]?

theorem Keeps.spares (hkeeps : h.Keeps h') : h.Spares h' :=
  fun n _ => hkeeps.engines_eq n

/-- An engine that loses its only owner is gone. -/
theorem spares_release (number : Nat) :
    Edit.Ends (h.Gained number) (release number) (fun _ => h.Spares)
      (fun _ => False) := by
  rintro h' ⟨rfl, o, howners, hempty, hfound⟩
  have hat : h'.engines[h.nextNumber]? = some o :=
    (hfound _).trans (if_pos rfl)
  have hgone : (release h.nextNumber).run h'
      = (reap h.nextNumber).run
        { h' with
          engines := h'.engines.insert h.nextNumber { o with owners := 0 } } := by
    unfold release
    rw [EStateM.run_bind, EStateM.run_modify, hat]
    dsimp only
    rw [howners]
  have hreap (s : Host)
      (hs : s.engines[h.nextNumber]? = some { o with owners := 0 }) :
      ∃ volume, (reap h.nextNumber).run s
        = .ok () { s with
            volume, engines := s.engines.erase h.nextNumber } := by
    unfold reap
    rw [EStateM.run_modify, hs]
    dsimp only
    rw [if_pos ⟨rfl, hempty⟩]
    exact ⟨_, rfl⟩
  obtain ⟨volume, hreaped⟩ := hreap { h' with
      engines := h'.engines.insert h.nextNumber { o with owners := 0 } }
    ((OrderedMap.getElem?_insert ..).trans (if_pos rfl))
  rw [hgone, hreaped]
  intro n hn
  refine (OrderedMap.getElem?_erase ..).trans ?_
  split
  next heq =>
    subst heq
    exact (hn.resolve_left (Nat.lt_irrefl _)).symm
  next hne =>
    refine (OrderedMap.getElem?_insert ..).trans ?_
    rw [if_neg hne, hfound, if_neg hne]

end Host

namespace Boundary.HostedSession

/-- Whether a rejection for a null pointer leaves what there was. -/
def Rejects (h : Host) :
    Except Fault HostedSession → Host → Prop
  | .error (.nullPointer _), h' => h.Spares h'
  | _, _ => True

/-- A session that was opened without a place is freed again. -/
theorem rejects_opened (number : Nat) (config : Config)
    (path : Option String) (place : Bool) :
    Edit.Ends (h.Gained number)
      (do
        if place then
          return .ok (ofNumber number config path)
        free (ofNumber number config path)
        return .error (.nullPointer "out_session"))
      (Rejects h) (fun _ => True) := by
  cases place with
  | true => exact .pure fun _ _ => trivial
  | false =>
      have hfree : Edit.Ends (h.Gained number)
          (free (ofNumber number config path)) (fun _ => h.Spares)
          (fun _ => True) :=
        (Host.spares_release number).weaken (fun _ hs => hs)
          (fun _ _ hs => hs) fun _ => False.elim
      exact hfree.bind fun _ => .pure fun _ hs => hs

/-- What both ways of opening give: a session over an engine that is new. -/
def Opened (h : Host) (config : Config) (hosted : HostedSession)
    (h' : Host) : Prop :=
  ∃ number path, hosted = ofNumber number config path ∧ h.Gained number h'

/-- Opening in memory opens an engine. -/
theorem opens_inMemory (config : Config) :
    Edit.Ends h.Keeps (openInMemory config) (Opened h config) h.Keeps :=
  Edit.Ends.bind (Host.gains_addEngine rfl rfl) fun number =>
    .pure fun _ hgained => ⟨number, none, rfl, hgained⟩

/-- Opening a directory opens an engine, or keeps those that are there. -/
theorem opens_directory (path : String) (config : Config) :
    Edit.Ends h.Keeps (openDirectory path config) (Opened h config)
      h.Keeps :=
  Edit.Ends.bind (Host.gains_openDirectory path config) fun number =>
    .pure fun _ hgained => ⟨number, some path, rfl, hgained⟩

/-- Opening in memory touches no engine that was there. -/
theorem rejects_exportInMemory (place : Bool) :
    Edit.Ends h.Keeps (exportInMemory place) (Rejects h)
      (fun _ => True) := by
  have hopen := (opens_inMemory (h := h) {}).weaken (fun _ hs => hs)
    (fun _ _ hs => hs) fun _ _ => trivial
  refine Edit.Ends.bind hopen fun hosted => ?_
  rintro s ⟨number, path, rfl, hgained⟩
  exact rejects_opened number {} path place s hgained

/-- Nor does opening a directory. -/
theorem rejects_exportDirectory (path : Option Bytes) (place : Bool) :
    Edit.Ends h.Keeps (exportDirectory path place) (Rejects h)
      (fun _ => True) := by
  cases path with
  | none => exact .pure fun _ hkeeps => hkeeps.spares
  | some bytes =>
  unfold exportDirectory
  dsimp only
  cases Utf8.decode (bytes.takeWhile (· != 0)) with
  | error why => exact .pure fun _ _ => trivial
  | ok path =>
  refine Edit.Ends.bind (opens_directory path {}).attempt fun outcome => ?_
  cases outcome with
  | error err => exact .pure fun _ _ => trivial
  | ok hosted =>
      rintro s ⟨number, path, rfl, hgained⟩
      exact rejects_opened number {} path place s hgained

end Boundary.HostedSession

end Colonnade
