import Conform.Proofs.Delivery
import Conform.Proofs.Kinship
import Conform.Proofs.Resolution

/-!
Plain data: nothing, booleans, numbers and texts, lists of plain data, and mappings from texts to plain data. One
descriptor walks through a value by itself to see whether it is plain data. The same can be said by a union that
refers to itself through deferred nodes, for its lists and for its mappings; a value that ends is matched by both
or by neither.

Main statement: `Recursion.matches_like_jsonData`.
-/
namespace Conform

open Value Descriptor

/-- The built-in classes of plain data that has a class check of its own. -/
def Class.data : List Class :=
  [.bool, .int, .float, .str, .dict]

theorem Class.conforms_data {c d : Class} (hc : c ∈ data) : d.conforms c = d.mro.contains c := by
  have plain : c.structural d = false ∧ c.registered = [] := by
    simp only [data, List.mem_cons, List.not_mem_nil, or_false] at hc
    rcases hc with rfl | rfl | rfl | rfl | rfl <;> exact ⟨rfl, rfl⟩
  simp [conforms, plain]

/-- The classes that derive from those of plain data. -/
theorem Class.mem_of_data {c d : Class} (hc : c ∈ data) (h : c ∈ d.mro) :
    d ∈ [.bool, .int, .myInt, .float, .str, .myStr, .dict, .myDict] := by
  have all : ∀ c ∈ data, c ∈ d.mro → d ∈ [bool, int, myInt, float, str, myStr, dict, myDict] := by
    cases d with
    | variant v => cases v <;> decide
    | internal n => simp [mro, data]
    | _ => decide
  exact all c hc h

namespace Value

/-- The class of a value that shows nothing but its class and what is attached to it. -/
def bareClass? : Value → Option Class
  | .other _ c | .thing c _ | .exception _ c _ | .checked c _ => some c
  | _ => none

/-- Whether a value is more than a bare claim to be plain data: what shows only its class is of no class of plain
data. -/
def Genuine (v : Value) : Prop :=
  ∀ c, v.bareClass? = some c → ∀ d ∈ Class.data, d ∉ c.mro

/-- What a list or a mapping holds. -/
def contents (h : Heap) : Value → List Value
  | .list _ i => h.list i
  | .dict _ i => (h.dict i).flatMap fun entry => [entry.1, entry.2]
  | _ => []

/-- A genuine value that comes to an end within a number of levels, and so does all that it holds. -/
def Nested (h : Heap) : Nat → Value → Prop
  | 0, _ => False
  | k + 1, v => v.Genuine ∧ ∀ w ∈ v.contents h, Nested h k w

/-- Plain data. Values of a derived class are as good as those of the built-in one. -/
inductive Json (h : Heap) : Value → Prop
  | nil : Json h .nil
  | bool (b : Bool) : Json h (.bool b)
  | int (kind : Flavour) (id : Ident) (n : Int) : Json h (.int kind id n)
  | float (id : Ident) (x : Binary64) : Json h (.float id x)
  | str (kind : Flavour) (id : Ident) (text : String) : Json h (.str kind id text)
  | list (kind : Flavour) {i : Handle} : (∀ w ∈ h.list i, Json h w) → Json h (.list kind i)
  | dict (kind : Flavour) {i : Handle} : (∀ entry ∈ h.dict i, entry.1.text?.isSome = true) →
    (∀ entry ∈ h.dict i, Json h entry.2) → Json h (.dict kind i)

@[simp] theorem json_list {h : Heap} {kind : Flavour} {i : Handle} :
    Json h (.list kind i) ↔ ∀ w ∈ h.list i, Json h w :=
  ⟨fun | .list _ items => items, .list kind⟩

@[simp] theorem json_dict {h : Heap} {kind : Flavour} {i : Handle} :
    Json h (.dict kind i) ↔ ∀ entry ∈ h.dict i, entry.1.text?.isSome = true ∧ Json h entry.2 := by
  constructor
  · rintro (_ | _ | _ | _ | _ | _ | ⟨_, keys, values⟩)
    exact fun entry he => ⟨keys entry he, values entry he⟩
  · intro entries
    exact .dict kind (fun entry he => (entries entry he).1) fun entry he => (entries entry he).2

/-- Whether a value is one of those that make up a class of plain data. -/
def isDatum (c : Class) : Value → Bool
  | .bool _ => c == .bool || c == .int
  | .int .. => c == .int
  | .float .. => c == .float
  | .str .. => c == .str
  | .dict .. => c == .dict
  | _ => false

variable {h : Heap} {v : Value} {k : Nat} {c : Class} {kind : Flavour} {i : Handle}

theorem isOf_data (hc : c ∈ Class.data) : v.isOf c = v.classOf.mro.contains c := by
  have asked : c ≠ .friendly := by
    rintro rfl
    exact absurd hc (by decide)
  rw [Bool.eq_iff_iff, isOf_iff, Class.conforms_data hc]
  simp [asked]

/-- A method is of a class that only shows by name. -/
theorem method_classOf (owner : Value) (name : String) (binding : Binding) :
    ∃ shown, (Value.method owner name binding).classOf = .internal shown := by
  cases binding with
  | builtin =>
    by_cases pattern : ∃ r, owner = .regex r ∧ name = "match"
    · obtain ⟨r, rfl, rfl⟩ := pattern
      exact ⟨_, rfl⟩
    · refine ⟨_, by rw [classOf]; exact fun r owns named => pattern ⟨r, owns, named⟩⟩
  | _ => exact ⟨_, by rw [classOf]⟩

/-- A genuine value is an instance of a class of plain data if it is such a datum. -/
theorem Genuine.isOf (genuine : v.Genuine) (hc : c ∈ Class.data) : v.isOf c = v.isDatum c := by
  rw [isOf_data hc]
  have others (hv : v.classOf ∉ [.bool, .int, .myInt, .float, .str, .myStr, .dict, .myDict]) :
      v.classOf.mro.contains c = false := by
    simpa using fun h => hv (Class.mem_of_data hc h)
  have bare (own : v.bareClass? = some v.classOf) : v.classOf.mro.contains c = false := by
    simpa using genuine _ own c hc
  have all {d e : Class} (same : ∀ c ∈ Class.data, d.mro.contains c = (c == e)) :
      d.mro.contains c = (c == e) := same c hc
  cases v with
  | bool b =>
    have same : ∀ c ∈ Class.data, Class.bool.mro.contains c = (c == .bool || c == .int) := by decide
    exact same c hc
  | int kind =>
    cases kind with
    | base => exact all (d := .int) (by decide)
    | derived => exact all (d := .myInt) (by decide)
  | float => exact all (d := .float) (by decide)
  | str kind =>
    cases kind with
    | base => exact all (d := .str) (by decide)
    | derived => exact all (d := .myStr) (by decide)
  | dict kind =>
    cases kind with
    | base => exact all (d := .dict) (by decide)
    | derived => exact all (d := .myDict) (by decide)
  | other | thing | exception | checked => exact bare rfl
  | cls d =>
    apply others
    rw [classOf]
    unfold Class.metaclass
    split <;> decide
  | fn f =>
    apply others
    rw [classOf]
    split <;> decide
  | method owner name binding =>
    obtain ⟨shown, named⟩ := method_classOf owner name binding
    exact others (by simp [named])
  | keys id owner =>
    apply others
    cases owner <;> simp [classOf]
  | typeHint | descriptor => exact others (by simp [classOf])
  | list kind =>
    apply others
    cases kind <;> (rw [classOf]; decide)
  | _ =>
    apply others
    rw [classOf]
    decide

theorem isDatum_str : v.isDatum .str = v.text?.isSome := by
  cases v <;> rfl

/-- Plain data, one alternative after the other. -/
theorem json_iff : v.Json h ↔
    v.same .nil = true ∨ v.isDatum .bool = true ∨ v.isDatum .int = true ∨ v.isDatum .float = true ∨
      v.isDatum .str = true ∨ (v.isList = true ∧ ∀ w ∈ v.contents h, w.Json h) ∨
      v.isDatum .dict = true ∧ ∀ entry ∈ (v.entries? h).getD [], entry.1.text?.isSome = true ∧ entry.2.Json h := by
  cases v with
  | nil => exact iff_of_true .nil (.inl rfl)
  | bool b => exact iff_of_true (.bool b) (by simp [isDatum])
  | int kind id n => exact iff_of_true (.int kind id n) (by simp [isDatum])
  | float id x => exact iff_of_true (.float id x) (by simp [isDatum])
  | str kind id text => exact iff_of_true (.str kind id text) (by simp [isDatum])
  | list kind i => simp [isDatum, same, isList, contents]
  | dict kind i => simp [isDatum, same, isList, entries?]
  | _ => exact iff_of_false (by rintro ⟨⟩) (by simp [isDatum, same, isList])

/-- What a value that ends holds ends a level earlier. -/
theorem Nested.item (nested : Nested h (k + 1) (.list kind i)) {w : Value} (hw : w ∈ h.list i) : Nested h k w :=
  nested.2 w hw

theorem Nested.entry (nested : Nested h (k + 1) (.dict kind i)) {entry : Value × Value} (he : entry ∈ h.dict i) :
    Nested h k entry.1 ∧ Nested h k entry.2 := by
  constructor
  all_goals
    apply nested.2
    exact List.mem_flatMap.mpr ⟨entry, he, by simp⟩

theorem Nested.genuine (nested : Nested h k v) : v.Genuine := by
  cases k with
  | zero => exact nested.elim
  | succ k => exact nested.1

end Value

section Walking

variable {functions : Library} {inv : Session → Prop} {h : Heap}

/-- The descriptor of plain data decides whether a value is plain data. -/
theorem jsonData_decides (heap : ∀ s, inv s → s.heap = h) {k n : Nat} {v : Value} (nested : v.Nested h k)
    (deep : k ≤ n) : ((Engine.ofDepth functions n).accepts .jsonData v).Decides inv (v.Json h) := by
  induction k generalizing n v with
  | zero => exact nested.elim
  | succ k ih =>
    obtain ⟨n, rfl⟩ := Nat.exists_eq_add_of_lt deep
    change (isPlainData (Engine.ofDepth functions (k + n)) v).Decides inv _
    have below : k ≤ k + n := Nat.le_add_right k n
    cases v with
    | nil => exact .pure (iff_of_true rfl .nil)
    | bool b => exact .pure (iff_of_true rfl (.bool b))
    | int kind id m => exact .pure (iff_of_true rfl (.int kind id m))
    | float id x => exact .pure (iff_of_true rfl (.float id x))
    | str kind id text => exact .pure (iff_of_true rfl (.str kind id text))
    | list kind i =>
      refine Act.Delivers.getHeap heap ?_
      have items := Act.Decides.allM fun w hw => ih (nested.item hw) below
      exact items.congr json_list.symm
    | dict kind i =>
      refine Act.Delivers.getHeap heap ?_
      have entry {e : Value × Value} (he : e ∈ h.dict i) :
          (do if e.1.text?.isSome then (Engine.ofDepth functions (k + n)).accepts .jsonData e.2
              else return false : Act Bool).Decides inv (e.1.text?.isSome = true ∧ e.2.Json h) := by
        refine Act.Delivers.ite (fun text => ?_) fun text => .pure (by simp [text])
        exact (ih (nested.entry he).2 below).congr (by simp [text])
      have entries := Act.Decides.allM fun e he => entry he
      exact entries.congr json_dict.symm
    | _ => exact .pure (iff_of_false Bool.false_ne_true (by rintro ⟨⟩))

end Walking

/-- A descriptor that refers to itself by a name: the identities of its nodes, the name, and the labels under which
the calls of its two thunks are recorded. -/
structure Recursion where
  node : Nat → Ident
  name : String
  label : Nat → String

namespace Recursion

/-- A deferred node that stands for what the name is bound to. -/
def again (r : Recursion) (i : Nat) : Descriptor :=
  .deferred (r.node i) (.thunk (r.node (i + 1)) (r.label i) (.ref r.name))

/-- Nothing, a boolean, a number, a text, a list of the same, or a mapping from texts to the same. -/
def descriptor (r : Recursion) : Descriptor :=
  .union (r.node 0) [.unit (r.node 1) .nil, .instanceOf (r.node 2) .bool, .instanceOf (r.node 3) .int,
    .instanceOf (r.node 4) .float, .instanceOf (r.node 5) .str, .collection (r.node 6) .array (r.again 7),
    .intersection (r.node 9) [.instanceOf (r.node 10) .dict,
      .mappingOf (r.node 11) (.instanceOf (r.node 12) .str) (r.again 13)]]

/-- A session in which the descriptor does refer to itself: the name is bound to it, and its deferred nodes are open
or resolved to it. -/
structure Ready (r : Recursion) (s : Session) : Prop where
  informed : s.Informed
  named : s.names.find? (·.1 == r.name) = some (r.name, .descriptor r.descriptor)
  resolved : ∀ i ∈ [7, 13], ∀ d, s.resolution? (r.node i) = some d → d = r.descriptor

/-- A session that is ready, with a given heap. -/
def At (r : Recursion) (h : Heap) (s : Session) : Prop :=
  r.Ready s ∧ s.heap = h

variable {r : Recursion} {h : Heap} {s t : Session}

theorem At.aside (here : r.At h s) (heap : t.heap = s.heap) (informed : t.Informed) (names : t.names = s.names)
    (resolved : t.resolved = s.resolved) : r.At h t where
  left.informed := informed
  left.named := names ▸ here.1.named
  left.resolved i hi d := by
    simp only [Session.resolution?, resolved]
    exact here.1.resolved i hi d
  right := heap.trans here.2

theorem trace_keeps (message : Look String) : (Logging.trace message).Leads (Session.Keeping (r.At h)) := by
  refine .mk (fun s _ t run here => ?_) fun s f t run here => ?_
  · obtain ⟨log, rfl⟩ := trace_ok run
    exact here.aside rfl here.1.informed rfl rfl
  · obtain ⟨-, rfl⟩ := trace_error run
    exact here

theorem ancestors_keeps (c : Class) : (Nominal.ancestors c).Leads (Session.Keeping (r.At h)) := by
  refine .bind .get fun s => ?_
  split
  · exact .pure _
  · refine .bind (trace_keeps _) fun _ => .bind (.modify fun s here => ?_) fun _ => .pure _
    exact here.aside rfl (ancestors_append here.1.informed c) rfl rfl

theorem isInstance_delivers (v : Value) (c : Class) :
    (Nominal.isInstance v c).Delivers (r.At h) (· = v.isOf c) := by
  refine .of_leads (fun s here => ?_) ?_
  · obtain ⟨t, run⟩ := Nominal.isInstance_answers here.1.informed v c
    exact ⟨_, t, run, rfl⟩
  · refine .ite (.pure true) (.bind (ancestors_keeps _) fun known => .ite (.pure true) ?_)
    split
    · exact .pure _
    · exact .bind (trace_keeps _) fun _ => .pure _

/-- The descriptor can be written down in every heap, since a deferred node stands for itself there. -/
theorem describe_descriptor (r : Recursion) (h : Heap) : ∃ text, r.descriptor.describe h = .ok text :=
  ⟨_, rfl⟩

variable {functions : Library} {i n : Nat} {v : Value} {P : Prop}

/-- The thunk of a deferred node answers with what the name is bound to. -/
theorem answered_delivers :
    (answered (Engine.ofDepth functions (n + 1)) (.thunk (r.node (i + 1)) (r.label i) (.ref r.name))).Delivers
      (r.At h) (· = r.descriptor) := by
  intro s here
  have found (t : Session) (names : t.names = s.names) :
      lookupName r.name t = .ok (.descriptor r.descriptor) t := by
    simp [lookupName, names, here.1.named]
  let t : Session := { s with calls := s.calls ++ [⟨r.label i, [], []⟩] }
  have called : (Engine.ofDepth functions (n + 1)).call (.thunk (r.node (i + 1)) (r.label i) (.ref r.name)) [] [] s =
      .ok (.descriptor r.descriptor) t := found t rfl
  exact ⟨_, t, Act.bind_of_ok called, here.aside rfl here.1.informed rfl rfl, rfl⟩

theorem settle_delivers (hi : i ∈ [7, 13]) :
    (settle (r.node i) r.descriptor).Delivers (r.At h) (· = r.descriptor) := by
  intro s here
  have known : (get : Act Session) s = .ok s s := rfl
  unfold settle
  rw [Act.bind_of_ok known]
  cases resolved : s.resolution? (r.node i) with
  | some d =>
    obtain rfl := here.1.resolved i hi d resolved
    obtain ⟨entry, found, same⟩ := Option.map_eq_some_iff.mp resolved
    rw [found]
    exact ⟨entry.2, s, rfl, here, same⟩
  | none =>
    obtain ⟨text, described⟩ := r.describe_descriptor s.heap
    obtain ⟨log, traced⟩ := trace_answers
      (do return "descriptors.DeferredType.resolve: Resolved to " ++ (← r.descriptor.describe))
      (Look.bind_eq_ok.mpr ⟨text, described, rfl⟩)
    rw [find?_of_open resolved]
    refine ⟨_, _, (Act.bind_of_ok traced).trans rfl, ⟨⟨here.1.informed, here.1.named, ?_⟩, here.2⟩, rfl⟩
    intro j hj d
    change Session.resolution? { s with resolved := _ } (r.node j) = some d → _
    rw [resolution?_append resolved]
    split
    · exact fun same => (Option.some.inj same).symm
    · exact here.1.resolved j hj d

/-- A deferred node of the descriptor stands for the descriptor. -/
theorem resolve_delivers (hi : i ∈ [7, 13]) :
    (resolve (Engine.ofDepth functions (n + 1)) (r.node i)
      (.thunk (r.node (i + 1)) (r.label i) (.ref r.name))).Delivers (r.At h) (· = r.descriptor) := by
  intro s here
  cases resolved : s.resolution? (r.node i) with
  | some d =>
    obtain rfl := here.1.resolved i hi d resolved
    exact ⟨_, s, resolve_of_resolved resolved, here, rfl⟩
  | none =>
    rw [resolve_of_open resolved]
    exact Act.Delivers.bind answered_delivers (fun d same => by rw [same]; exact settle_delivers hi) s here

theorem again_decides (hi : i ∈ [7, 13])
    (matched : ((Engine.ofDepth functions (n + 1)).accepts r.descriptor v).Decides (r.At h) P) :
    ((Engine.ofDepth functions (n + 2)).accepts (r.again i) v).Decides (r.At h) P :=
  Act.Delivers.bind (resolve_delivers hi) fun _ same => same ▸ matched

theorem instanceOf_decides (genuine : v.Genuine) {c : Class} (hc : c ∈ Class.data) (id : Ident) :
    ((Engine.ofDepth functions (n + 1)).accepts (.instanceOf id c) v).Decides (r.At h) (v.isDatum c = true) :=
  (isInstance_delivers v c).mono fun _ answer => by rw [answer, genuine.isOf hc]

theorem array_decides (id : Ident) (items : ∀ w ∈ v.contents h,
      ((Engine.ofDepth functions n).accepts (r.again 7) w).Decides (r.At h) (w.Json h)) :
    ((Engine.ofDepth functions (n + 1)).accepts (.collection id .array (r.again 7)) v).Decides (r.At h)
      (v.isList = true ∧ ∀ w ∈ v.contents h, w.Json h) := by
  change (if v.isList then v.allItems ((Engine.ofDepth functions n).accepts (r.again 7)) else pure false
    : Act Bool).Decides _ _
  cases v with
  | list kind i =>
    have walk (p : Value → Act Bool) : (Value.list kind i).allItems p = Act.getHeap >>= fun h => (h.list i).allM p := by
      rfl
    rw [walk]
    refine Act.Delivers.getHeap (fun _ here => here.2) ?_
    exact (Act.Decides.allM items).congr (by simp [isList, contents])
  | _ => exact .pure (by simp [isList])

theorem mapping_decides {kind : Flavour} {at_ : Handle} (id id' : Ident)
    (keys : ∀ entry ∈ h.dict at_, entry.1.Genuine)
    (values : ∀ entry ∈ h.dict at_,
      ((Engine.ofDepth functions (n + 1)).accepts (r.again 13) entry.2).Decides (r.At h) (entry.2.Json h)) :
    ((Engine.ofDepth functions (n + 2)).accepts (.mappingOf id (.instanceOf id' .str) (r.again 13))
      (.dict kind at_)).Decides (r.At h) (∀ entry ∈ h.dict at_, entry.1.text?.isSome = true ∧ entry.2.Json h) := by
  refine Act.Delivers.getHeap (fun _ here => here.2) ?_
  refine Act.Decides.allM fun entry he => ?_
  refine .and ?_ fun _ => values entry he
  rw [← isDatum_str]
  exact instanceOf_decides (keys entry he) (by decide) id'

/-- The descriptor decides whether a value is plain data. A level of a mapping takes four steps: through the union,
the intersection, the mapping and the deferred node. -/
theorem descriptor_decides {k : Nat} (nested : v.Nested h k) (deep : 4 * k ≤ n) :
    ((Engine.ofDepth functions n).accepts r.descriptor v).Decides (r.At h) (v.Json h) := by
  induction k generalizing n v with
  | zero => exact nested.elim
  | succ k ih =>
    obtain ⟨n, rfl⟩ : ∃ m, n = m + 4 := ⟨n - 4, by omega⟩
    have genuine := nested.genuine
    -- A deferred node takes one more step, and what is matched there is a level further down.
    have again {i m : Nat} (hi : i ∈ [7, 13]) {w : Value} (inner : w.Nested h k) (deep : 4 * k ≤ m) :
        ((Engine.ofDepth functions (m + 1)).accepts (r.again i) w).Decides (r.At h) (w.Json h) := by
      cases m with
      | zero =>
        obtain rfl : k = 0 := by omega
        exact inner.elim
      | succ m => exact again_decides hi (ih inner deep)
    have mapping (datum : v.isDatum .dict = true) :
        ((Engine.ofDepth functions (n + 2)).accepts (.mappingOf (r.node 11) (.instanceOf (r.node 12) .str) (r.again 13))
          v).Decides (r.At h)
          (∀ entry ∈ (v.entries? h).getD [], entry.1.text?.isSome = true ∧ entry.2.Json h) := by
      cases v with
      | dict kind at_ =>
        refine mapping_decides _ _ (fun entry he => (nested.entry he).1.genuine) fun entry he => ?_
        exact again (by decide) (nested.entry he).2 (by omega)
      | _ => cases datum
    have mappings : ((Engine.ofDepth functions (n + 3)).accepts (.intersection (r.node 9)
        [.instanceOf (r.node 10) .dict, .mappingOf (r.node 11) (.instanceOf (r.node 12) .str) (r.again 13)])
        v).Decides (r.At h) (v.isDatum .dict = true ∧
          ∀ entry ∈ (v.entries? h).getD [], entry.1.text?.isSome = true ∧ entry.2.Json h) := by
      change (List.allM (fun d => (Engine.ofDepth functions (n + 2)).accepts d v) _).Decides _ _
      exact .allM_cons (instanceOf_decides genuine (by decide) _) fun datum => .allM_singleton (mapping datum)
    rw [json_iff]
    change (List.anyM (fun d => (Engine.ofDepth functions (n + 3)).accepts d v) _).Decides _ _
    refine .anyM_cons (Act.Decides.pure Iff.rfl) ?_
    refine .anyM_cons (instanceOf_decides genuine (by decide) _) ?_
    refine .anyM_cons (instanceOf_decides genuine (by decide) _) ?_
    refine .anyM_cons (instanceOf_decides genuine (by decide) _) ?_
    refine .anyM_cons (instanceOf_decides genuine (by decide) _) ?_
    refine .anyM_cons (array_decides _ fun w hw => again (by decide) (nested.2 w hw) (by omega)) ?_
    exact .anyM_singleton mappings

/-- **Two ways to say plain data.** Where a descriptor of plain data refers to itself, every value that comes to an
end is matched by it if and only if it is matched by the descriptor that walks by itself, and both are, if and only
if it is made up as plain data is. Both answer, given as many steps as the value has levels, four for each. -/
theorem matches_like_jsonData (functions : Library) (r : Recursion) {s : Session} (ready : r.Ready s) {v : Value}
    {k n : Nat} (nested : v.Nested s.heap k) (deep : 4 * k ≤ n) :
    ∃ b t, (Engine.ofDepth functions n).accepts .jsonData v s = .ok b s ∧
      (Engine.ofDepth functions n).accepts r.descriptor v s = .ok b t ∧ (b = true ↔ v.Json s.heap) := by
  have walked : ((Engine.ofDepth functions n).accepts .jsonData v).Decides (· = s) (v.Json s.heap) :=
    jsonData_decides (fun _ same => congrArg Session.heap same) nested (by omega)
  have said : ((Engine.ofDepth functions n).accepts r.descriptor v).Decides (r.At s.heap) (v.Json s.heap) :=
    descriptor_decides nested deep
  obtain ⟨b, u, plain, stays, answer⟩ := walked s rfl
  obtain ⟨c, t, again, -, answer'⟩ := said s ⟨ready, rfl⟩
  obtain rfl : b = c := Bool.eq_iff_iff.mpr (answer.trans answer'.symm)
  exact ⟨b, t, stays ▸ plain, again, answer⟩

/-- Plain data that says so of itself. -/
def selfSaid : Recursion where
  node i := i + 1
  name := "J"
  label _ := "J"

/-- A list that holds a number and a mapping, the mapping a list in its turn; and a mapping with a key that is no
text. -/
def document : Session where
  heap :=
    { lists := #[[.int .base 20 5, .dict .base 0], [.nil]]
      dicts := #[[(.str .derived 21 "a", .list .base 1)], [(.int .base 22 1, .nil)]] }
  names := [("J", .descriptor selfSaid.descriptor)]

theorem selfSaid_ready : selfSaid.Ready document where
  informed := nofun
  named := rfl
  resolved := nofun

/-- Both descriptors match the list, and neither matches the mapping. -/
theorem document_matches_like_jsonData :
    (∃ t, (Engine.ofDepth Zoo.library 16).accepts .jsonData (.list .derived 0) document = .ok true document ∧
      (Engine.ofDepth Zoo.library 16).accepts selfSaid.descriptor (.list .derived 0) document = .ok true t) ∧
    ∃ t, (Engine.ofDepth Zoo.library 16).accepts .jsonData (.dict .base 1) document = .ok false document ∧
      (Engine.ofDepth Zoo.library 16).accepts selfSaid.descriptor (.dict .base 1) document = .ok false t := by
  have list : Nested document.heap 4 (.list .derived 0) := by
    simp [Nested, contents, document, Heap.list, Heap.dict, Genuine, bareClass?]
  have dict : Nested document.heap 4 (.dict .base 1) := by
    simp [Nested, contents, document, Heap.dict, Genuine, bareClass?]
  have deep : 4 * 4 ≤ 16 := Nat.le_refl 16
  obtain ⟨b, t, plain, again, listed⟩ := matches_like_jsonData Zoo.library selfSaid selfSaid_ready list deep
  obtain ⟨c, u, plain', again', mapped⟩ := matches_like_jsonData Zoo.library selfSaid selfSaid_ready dict deep
  have yes : b = true := by
    rw [listed]
    simp [document, Heap.list, Heap.dict, text?, Json.int, Json.nil]
  have no : c = false := by
    rw [← Bool.not_eq_true, mapped]
    simp [document, Heap.dict, text?]
  exact ⟨⟨t, yes ▸ plain, yes ▸ again⟩, u, no ▸ plain', no ▸ again'⟩

end Recursion

end Conform
