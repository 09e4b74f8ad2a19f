import DeviceColumns.Proofs.Custody.Columns
import DeviceColumns.Proofs.Custody.Sharing
import DeviceColumns.Session.Lookup

/-!
Custody in a session. The holdings are those of the named objects and of whatever a request has in
hand: objects that it took away or made, or one that keeps its name while its contents are away. A
request that is done has nothing in hand any more. What requests do with objects is said once for
every invariant that taking, naming, lending and dropping respect; custody is one of them.
-/

namespace DeviceColumns

set_option autoImplicit false

open DeviceColumns.Action

def Object.holdings (object : Object) : Holdings := (object.buffers, object.mappings)

theorem Object.column_holdings (column : Column) :
    (Object.column column).holdings = .ofBuffers column.buffers := rfl

theorem Object.shared_holdings (table : SharedTable) :
    (Object.shared table).holdings = .ofMappings (SharedColumn.mappingsOfAll table.owners) := rfl

theorem Object.column?_holdings (object : Object) (column : Column)
    (selected : object.column? = some column) : object.holdings = .ofBuffers column.buffers := by
  cases object <;> cases selected
  rfl

theorem Object.buffer?_holdings (object : Object) (buffer : Buffer)
    (selected : object.buffer? = some buffer) : object.holdings = .ofBuffers [buffer] := by
  cases object <;> cases selected
  rfl

theorem Object.table?_holdings (object : Object) (table : Table)
    (selected : object.table? = some table) :
    object.holdings = .ofBuffers (Column.buffersOfAll table.columns) := by
  cases object <;> cases selected
  rfl

theorem Object.array?_holdings {object : Object} {node : ArrayNode}
    (selected : object.array? = some node) :
    object.holdings = .ofBuffers node.buffers ∧
      ∀ other, (object.withArray other).holdings = .ofBuffers other.buffers ∧
        (object.withArray other).resource? = none := by
  cases object <;> cases selected
  · exact ⟨rfl, fun other => ⟨rfl, rfl⟩⟩
  · exact ⟨rfl, fun other => ⟨rfl, rfl⟩⟩

/-- What a resource or engine can be asked to allocate is booked in existing ledgers. -/
def Object.Sound (count : Nat) (object : Object) : Prop :=
  ∀ resource, object.resource? = some resource → resource.Sound count

theorem Object.sound_of_no_resource {count : Nat} {object : Object}
    (none : object.resource? = none) : object.Sound count := by
  intro resource some
  rw [none] at some
  contradiction

theorem Object.drop_custody {keeps : Holdings → Machine → Prop} {admits : Resource → Prop}
    {recent : Buffer → Prop} (custodial : Custodial keeps admits recent) {held : Holdings}
    {object : Object} {machine : Machine} (kept : keeps (held + object.holdings) machine) :
    keeps held (object.drop machine) := by
  refine custodial.closeAll (custodial.freeAll (Holdings.of_eq kept ?_))
  rw [add_assoc]
  congr 1
  exact Prod.ext (zero_add _).symm (add_zero _).symm

namespace Session

def holdings (session : Session) : Holdings :=
  (session.objects.map fun entry => entry.2.holdings).sum

/-- What they hold apart from the one whose contents are away. -/
def holdingsWithout (away : Option String) (session : Session) : Holdings :=
  match away with
  | none => session.holdings
  | some name => (session.forget name).holdings

/-- The objects of the session and what a request has in hand are all that the machine keeps. -/
structure Sound (scope : Scope) (count : Nat) (away : Option String) (held : Holdings)
    (session : Session) : Prop where
  distinct : (session.objects.map Prod.fst).Nodup
  named : ∀ name ∈ away, ∃ object, session.find? name = some object
  resources : ∀ entry ∈ session.objects, entry.2.Sound count
  custody : Custody scope count (held + session.holdingsWithout away) session.machine

variable {scope : Scope} {count : Nat} {away : Option String} {held other : Holdings}
  {session : Session} {name : String} {object old : Object}

theorem find?_mem (found : session.find? name = some object) : (name, object) ∈ session.objects := by
  obtain ⟨before, after, split, -⟩ := List.lookup_eq_some_iff.mp found
  rw [split]
  exact List.mem_append_right _ List.mem_cons_self

theorem split_at (distinct : (session.objects.map Prod.fst).Nodup)
    (found : session.find? name = some object) :
    ∃ before after, session.objects = before ++ (name, object) :: after ∧
      (session.forget name).objects = before ++ after ∧
      ∀ new, (session.update name new).objects = before ++ (name, new) :: after := by
  obtain ⟨before, after, split, apart⟩ := List.lookup_eq_some_iff.mp found
  rw [split, List.map_append, List.map_cons, List.nodup_append, List.nodup_cons] at distinct
  have earlier : ∀ entry ∈ before, entry.1 ≠ name := fun entry member same => by
    simpa [same] using apart entry member
  have later : ∀ entry ∈ after, entry.1 ≠ name := fun entry member same =>
    distinct.2.1.1 (List.mem_map.mpr ⟨entry, member, same⟩)
  refine ⟨before, after, split, ?_, fun new => ?_⟩
  · have kept (entries : List (String × Object)) (others : ∀ entry ∈ entries, entry.1 ≠ name) :
        entries.filter (fun entry => entry.1 != name) = entries :=
      List.filter_eq_self.mpr fun entry member => by simpa using others entry member
    rw [forget, split, List.filter_append, List.filter_cons_of_neg (by simp), kept before earlier,
      kept after later]
  · have kept (entries : List (String × Object)) (others : ∀ entry ∈ entries, entry.1 ≠ name) :
        (entries.map fun entry => if entry.1 = name then (name, new) else entry) = entries :=
      (List.map_congr_left fun entry member => if_neg (others entry member)).trans (List.map_id _)
    rw [Session.update, split, List.map_append, List.map_cons, if_pos rfl, kept before earlier,
      kept after later]

theorem holdings_of_find? (distinct : (session.objects.map Prod.fst).Nodup)
    (found : session.find? name = some object) :
    session.holdings = object.holdings + (session.forget name).holdings := by
  obtain ⟨before, after, split, rest, -⟩ := split_at distinct found
  simp only [holdings, split, rest, List.map_append, List.map_cons, List.sum_append, List.sum_cons]
  abel

theorem holdings_update (distinct : (session.objects.map Prod.fst).Nodup)
    (found : session.find? name = some old) :
    (session.update name object).holdings = object.holdings + (session.forget name).holdings := by
  obtain ⟨before, after, -, rest, updated⟩ := split_at distinct found
  simp only [holdings, updated, rest, List.map_append, List.map_cons, List.sum_append,
    List.sum_cons]
  abel

theorem forget_of_absent (absent : session.find? name = none) : session.forget name = session := by
  have different := List.lookup_eq_none_iff.mp absent
  have kept : session.objects.filter (fun entry => entry.1 != name) = session.objects :=
    List.filter_eq_self.mpr fun entry member => by
      simpa [bne_comm] using different entry member
  rw [forget, kept]

theorem update_names : (session.update name object).objects.map Prod.fst =
    session.objects.map Prod.fst := by
  rw [Session.update, List.map_map]
  apply List.map_congr_left
  intro entry member
  simp only [Function.comp_apply]
  split_ifs with same
  · exact same.symm
  · rfl

namespace Sound

theorem of_eq (sound : session.Sound scope count away held) (same : held = other) :
    session.Sound scope count away other := same ▸ sound

theorem onto (sound : session.Sound scope count away held) {machine : Machine}
    (custody : Custody scope count (other + session.holdingsWithout away) machine) :
    Session.Sound scope count away other { session with machine := machine } :=
  ⟨sound.distinct, sound.named, sound.resources, custody⟩

theorem forget_distinct (sound : session.Sound scope count away held) (name : String) :
    ((session.forget name).objects.map Prod.fst).Nodup :=
  sound.distinct.sublist (List.filter_sublist.map _)

theorem forget_resources (sound : session.Sound scope count away held) (name : String) :
    ∀ entry ∈ (session.forget name).objects, entry.2.Sound count :=
  fun entry member => sound.resources entry (List.mem_of_mem_filter member)

theorem object_sound (sound : session.Sound scope count away held)
    (found : session.find? name = some object) : object.Sound count :=
  sound.resources _ (find?_mem found)

theorem take (sound : session.Sound scope count none held)
    (found : session.find? name = some object) :
    (session.forget name).Sound scope count none (held + object.holdings) where
  distinct := sound.forget_distinct name
  named := by simp
  resources := sound.forget_resources name
  custody := by
    apply sound.custody.of_eq
    rw [holdingsWithout, holdings_of_find? sound.distinct found, ← add_assoc]
    rfl

/-- The contents of an object are taken out; the object keeps its name. -/
theorem lend (sound : session.Sound scope count none held)
    (found : session.find? name = some object) :
    session.Sound scope count (some name) (held + object.holdings) where
  distinct := sound.distinct
  named := by
    intro other same
    cases same
    exact ⟨object, found⟩
  resources := sound.resources
  custody := (sound.take found).custody

theorem restore (sound : session.Sound scope count (some name) (held + object.holdings))
    (found : session.find? name = some object) : session.Sound scope count none held where
  distinct := sound.distinct
  named := by simp
  resources := sound.resources
  custody := by
    apply sound.custody.of_eq
    rw [holdingsWithout, holdingsWithout, holdings_of_find? sound.distinct found, ← add_assoc]

theorem update (sound : session.Sound scope count (some name) (held + object.holdings))
    (formed : object.Sound count) : (session.update name object).Sound scope count none held := by
  obtain ⟨old, found⟩ := sound.named name rfl
  refine ⟨?_, by simp, ?_, ?_⟩
  · rw [update_names]
    exact sound.distinct
  · intro entry member
    obtain ⟨previous, earlier, rfl⟩ := List.mem_map.mp member
    split_ifs
    · exact formed
    · exact sound.resources previous earlier
  · apply sound.custody.of_eq
    rw [holdingsWithout, holdingsWithout, holdings_update sound.distinct found, ← add_assoc]

theorem bind (sound : session.Sound scope count none (held + object.holdings))
    (formed : object.Sound count) : (session.bind name object).Sound scope count none held := by
  have distinct : (((name, object) :: (session.forget name).objects).map Prod.fst).Nodup := by
    refine List.nodup_cons.mpr ⟨?_, sound.forget_distinct name⟩
    simp [forget]
  have resources : ∀ entry ∈ (name, object) :: (session.forget name).objects,
      entry.2.Sound count :=
    List.forall_mem_cons.mpr ⟨formed, sound.forget_resources name⟩
  have custody := sound.custody
  unfold Session.bind
  cases found : session.find? name with
  | none =>
      refine ⟨distinct, by simp, resources, custody.of_eq ?_⟩
      simp only [holdingsWithout, holdings, List.map_cons, List.sum_cons, forget_of_absent found,
        ← add_assoc]
  | some old =>
      refine ⟨distinct, by simp, resources,
        Object.drop_custody Custody.custodial (custody.of_eq ?_)⟩
      rw [holdingsWithout, holdings_of_find? sound.distinct found]
      simp only [holdingsWithout, holdings, List.map_cons, List.sum_cons]
      abel

end Sound

end Session

namespace SessionAction

variable {Value Next : Type}

def ReadOnly (act : SessionAction Value) : Prop := ∀ session, (act session).2 = session

namespace ReadOnly

variable {act : SessionAction Value} {next : Value → SessionAction Next}

theorem keeps (readOnly : ReadOnly act) {before : Session → Prop} :
    Triple before act (fun _ => before) before := by
  intro session holds
  have same := readOnly session
  rcases ran : act session with ⟨fault | value, after⟩ <;> rw [ran] at same <;> subst same <;>
    exact holds

theorem pure (value : Value) : ReadOnly (Pure.pure value) := fun _ => rfl

theorem fail (fault : Failure) : ReadOnly (Action.fail fault : SessionAction Value) := fun _ => rfl

theorem ofExcept (outcome : Except Failure Value) : ReadOnly (Action.ofExcept outcome) :=
  fun _ => rfl

theorem get : ReadOnly (Action.get : SessionAction Session) := fun _ => rfl

theorem bind (first : ReadOnly act) (second : ∀ value, ReadOnly (next value)) :
    ReadOnly (act >>= next) := by
  intro session
  have same := first session
  rw [bind_apply]
  rcases ran : act session with ⟨fault | value, after⟩ <;> rw [ran] at same
  · exact same
  · exact (second value after).trans same

theorem heap : ReadOnly SessionAction.heap := fun _ => rfl

theorem find (name : String) : ReadOnly (SessionAction.find name) := by
  intro session
  unfold SessionAction.find
  cases session.find? name <;> rfl

theorem findAs (select : Object → Option Value) (name : String) :
    ReadOnly (SessionAction.findAs select name) := by
  apply bind (find name)
  intro object
  cases select object
  · exact fail _
  · exact pure _

theorem resolve (pointer : Pointer) : ReadOnly (SessionAction.resolve pointer) := by
  cases pointer with
  | absolute address => exact pure address
  | relative object offset => exact bind (findAs _ object) fun start => pure _

theorem resolve? (pointer : Option Pointer) : ReadOnly (SessionAction.resolve? pointer) := by
  cases pointer with
  | none => exact pure none
  | some given => exact bind (resolve given) fun address => pure _

mutual

theorem resolveView (spec : ViewSpec) : ReadOnly (SessionAction.resolveView spec) := by
  obtain ⟨type, rows, data, mask, nullCount, children⟩ := spec
  unfold SessionAction.resolveView
  apply bind (resolve? data)
  intro _
  apply bind (resolve? mask)
  intro _
  exact bind (resolveViews children) fun _ => pure _

theorem resolveViews (specs : List ViewSpec) : ReadOnly (SessionAction.resolveViews specs) := by
  cases specs with
  | nil =>
      unfold SessionAction.resolveViews
      exact pure []
  | cons spec rest =>
      unfold SessionAction.resolveViews
      exact bind (resolveView spec) fun _ => bind (resolveViews rest) fun _ => pure _

end

theorem ledgerOf (subject : String) : ReadOnly (SessionAction.ledgerOf subject) :=
  bind (findAs _ subject) fun _ => bind get fun _ => pure _

end ReadOnly

theorem findAs_found (select : Object → Option Value) (name : String) {before : Session → Prop} :
    Triple before (findAs select name)
      (fun value session =>
        (∃ object, session.find? name = some object ∧ select object = some value) ∧ before session)
      before := by
  intro session holds
  unfold findAs
  rw [bind_apply, find]
  cases found : session.find? name with
  | none => exact holds
  | some object =>
      simp only
      cases selected : select object with
      | none => exact holds
      | some value => exact ⟨⟨object, found, selected⟩, holds⟩

end SessionAction

/-- An invariant of sessions, of what a request has in hand and of the object whose contents are
away, that lasts while a request goes through the objects with these names: while it works on the
machine as `keeps` allows, takes objects and gives names to others, and takes the contents of an
object out to put others in. An object without buffers may have any name. -/
structure Stewardship (keeps : Holdings → Machine → Prop) (admits : Resource → Prop)
    (recent : Buffer → Prop) (names : Set String)
    (sound : Option String → Holdings → Session → Prop) : Prop
    extends Custodial keeps admits recent where
  onto : ∀ {away held session}, sound away held session → ∃ frame,
    keeps (held + frame) session.machine ∧ ∀ {kept machine}, keeps (kept + frame) machine →
      sound away kept { session with machine := machine }
  admitted : ∀ {held session name object resource}, sound none held session →
    session.find? name = some object → object.resource? = some resource → admits resource
  take : ∀ {held session name object}, name ∈ names → session.find? name = some object →
    sound none held session → sound none (held + object.holdings) (session.forget name)
  lend : ∀ {held session name object}, name ∈ names ∨ object.buffers = [] →
    session.find? name = some object → sound none held session →
    sound (some name) (held + object.holdings) session
  restore : ∀ {held session name object}, session.find? name = some object →
    sound (some name) (held + object.holdings) session → sound none held session
  update : ∀ {held session name object}, object.resource? = none →
    sound (some name) (held + object.holdings) session →
    sound none held (session.update name object)
  bind : ∀ {held session name object}, name ∈ names → object.resource? = none →
    sound none (held + object.holdings) session → sound none held (session.bind name object)

/-- Custody lasts whatever names a request goes through. -/
theorem Session.Sound.stewardship {scope : Scope} {count : Nat} :
    Stewardship (Custody scope count) (·.Sound count) (fun _ => True) Set.univ
      (Session.Sound scope count) where
  toCustodial := Custody.custodial
  onto := fun sound => ⟨_, sound.custody, sound.onto⟩
  admitted := fun sound found selected => sound.object_sound found _ selected
  take := fun _ found sound => sound.take found
  lend := fun _ found sound => sound.lend found
  restore := fun found sound => sound.restore found
  update := fun none sound => sound.update (Object.sound_of_no_resource none)
  bind := fun _ none sound => sound.bind (Object.sound_of_no_resource none)

namespace Stewardship

open SessionAction

variable {keeps : Holdings → Machine → Prop} {admits : Resource → Prop} {recent : Buffer → Prop}
  {names : Set String} {sound : Option String → Holdings → Session → Prop}
  (steward : Stewardship keeps admits recent names sound) {away : Option String} {held : Holdings}
  {Fault Value : Type}

include steward

theorem resourceOf (via : String) :
    Triple (sound none held) (resourceOf via)
      (fun resource session => admits resource ∧ sound none held session) (sound none held) := by
  refine (findAs_found Object.resource? via).conseq (fun _ sound => sound) ?_ fun _ sound => sound
  rintro resource session ⟨⟨object, found, selected⟩, sound⟩
  exact ⟨steward.admitted sound found selected, sound⟩

section Lifting

variable {wrap : Fault → Failure} {act : Action Machine Fault Value}

/-- What lasts on a machine whatever else is held there lasts in a session, the objects of the
session being a frame. -/
theorem framed {before failed : Holdings} {after : Value → Holdings}
    (spec : ∀ frame, Triple (keeps (before + frame)) act (fun value => keeps (after value + frame))
      (keeps (failed + frame))) :
    Triple (sound away before) (onMachine wrap act) (fun value => sound away (after value))
      (sound away failed) := by
  intro session settled
  obtain ⟨frame, kept, onto⟩ := steward.onto settled
  have outcome := spec frame session.machine kept
  unfold onMachine
  rcases ran : act session.machine with ⟨fault | value, machine⟩ <;> rw [ran] at outcome <;>
    exact onto outcome

theorem exchanges {given kept : Holdings} {gained : Value → Holdings}
    (spec : ∀ held, Triple (keeps (held + given)) act (fun value => keeps (held + gained value))
      (keeps (held + kept)))
    (held : Holdings) :
    Triple (sound away (held + given)) (onMachine wrap act)
      (fun value => sound away (held + gained value)) (sound away (held + kept)) := by
  refine steward.framed fun frame => (spec (held + frame)).conseq ?_ ?_ ?_
  · exact fun _ kept => Holdings.of_eq kept (add_right_comm _ _ _)
  · exact fun _ _ kept => Holdings.of_eq kept (add_right_comm _ _ _)
  · exact fun _ kept => Holdings.of_eq kept (add_right_comm _ _ _)

theorem gains {gained : Value → Holdings}
    (spec : ∀ held, Triple (keeps held) act (fun value => keeps (held + gained value)) (keeps held))
    (held : Holdings) :
    Triple (sound away held) (onMachine wrap act) (fun value => sound away (held + gained value))
      (sound away held) := by
  refine steward.framed fun frame => (spec (held + frame)).conseq ?_ ?_ ?_
  · exact fun _ kept => kept
  · exact fun _ _ kept => Holdings.of_eq kept (add_right_comm _ _ _)
  · exact fun _ kept => kept

theorem trades {given : Holdings} {gained : Value → Holdings}
    (spec : ∀ held, Triple (keeps (held + given)) act (fun value => keeps (held + gained value))
      (keeps held))
    (held : Holdings) :
    Triple (sound away (held + given)) (onMachine wrap act)
      (fun value => sound away (held + gained value)) (sound away held) := by
  refine steward.framed fun frame => (spec (held + frame)).conseq ?_ ?_ ?_
  · exact fun _ kept => Holdings.of_eq kept (add_right_comm _ _ _)
  · exact fun _ _ kept => Holdings.of_eq kept (add_right_comm _ _ _)
  · exact fun _ kept => kept

/-- The contents of an object are worked on while it keeps its name. If that fails, they are back. -/
theorem lends {name : String} (named : name ∈ names) (object : Object)
    {gained : Value → Holdings}
    (spec : ∀ held, Triple (keeps (held + object.holdings)) act
      (fun value => keeps (held + gained value)) (keeps (held + object.holdings)))
    (held : Holdings) :
    Triple (fun session => session.find? name = some object ∧ sound none held session)
      (onMachine wrap act) (fun value => sound (some name) (held + gained value))
      (sound none held) := by
  intro session ⟨found, settled⟩
  have exchanged : Triple (sound (some name) (held + object.holdings)) (onMachine wrap act) _ _ :=
    steward.exchanges spec held
  have outcome := exchanged session (steward.lend (.inl named) found settled)
  unfold onMachine at *
  rcases ran : act session.machine with ⟨fault | value, machine⟩ <;> rw [ran] at outcome
  · exact steward.restore found outcome
  · exact outcome

theorem drops {change : Machine → Machine} {given : Holdings}
    (spec : ∀ {held machine}, keeps (held + given) machine → keeps held (change machine))
    (held : Holdings) {wrap : Fault → Failure} {failed : Session → Prop} :
    Triple (sound away (held + given)) (onMachine wrap (Action.modify change))
      (fun _ => sound away held) failed := by
  intro session settled
  obtain ⟨frame, kept, onto⟩ := steward.onto settled
  exact onto (spec (Holdings.of_eq kept (add_right_comm _ _ _)))

end Lifting

theorem binds {name : String} (named : name ∈ names) (object : Object)
    (none : object.resource? = none) {failed : Session → Prop} :
    Triple (sound .none (held + object.holdings)) (SessionAction.bind name object)
      (fun _ => sound .none held) failed :=
  Triple.modify fun _ settled => steward.bind named none settled

theorem bindsLast {name : String} (named : name ∈ names) (object : Object)
    (none : object.resource? = none) (answer : Value) :
    Triple (sound .none (held + object.holdings))
      (do
        SessionAction.bind name object
        return answer)
      (fun _ => sound .none held) (sound .none held) :=
  (steward.binds named object none).bind fun _ => Triple.pure fun _ settled => settled

/-- An object that owns nothing is named. -/
theorem bindsBare {name : String} (named : name ∈ names) (object : Object)
    (none : object.resource? = none) (bare : object.holdings = 0) (answer : Value) :
    Triple (sound .none held)
      (do
        SessionAction.bind name object
        return answer)
      (fun _ => sound .none held) (sound .none held) :=
  (steward.bindsLast named object none answer).weaken fun _ settled =>
    Holdings.of_eq settled (by rw [bare, add_zero])

theorem takeAs {select : Object → Option Value} {holds : Value → Holdings}
    (selects : ∀ object value, select object = some value → object.holdings = holds value)
    {name : String} (named : name ∈ names) (held : Holdings) :
    Triple (sound none held) (takeAs select name) (fun value => sound none (held + holds value))
      (sound none held) := by
  intro session settled
  unfold SessionAction.takeAs
  rw [bind_apply, find]
  cases found : session.find? name with
  | none => exact settled
  | some object =>
      simp only
      cases selected : select object with
      | none => exact settled
      | some value =>
          exact Holdings.of_eq (steward.take named found settled)
            (by rw [selects object value selected])

theorem droppingOnFailure (taken : Object) {act : SessionAction Value} {before : Session → Prop}
    {after : Value → Session → Prop}
    (spec : Triple before act after (sound none (held + taken.holdings))) :
    Triple before (droppingOnFailure taken act) after (sound none held) := by
  refine spec.undoOnFailure fun session settled => ?_
  obtain ⟨frame, kept, onto⟩ := steward.onto settled
  exact onto (Object.drop_custody steward.toCustodial (Holdings.of_eq kept (add_right_comm _ _ _)))

end Stewardship

end DeviceColumns
