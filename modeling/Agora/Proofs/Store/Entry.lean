import Mathlib.Data.Set.Insert
import Agora.Proofs.Store.Session

namespace Agora.Store

abbrev Entry := Value × Value × Value

def Entry.on (message user : Int64) (x : Entry) : Bool :=
  x.1.equals (.integer message) && x.2.1.equals (.integer user)

def entryOf (third : String) (r : Record) : Entry :=
  (r.get "messageId", r.get "userId", r.get third)

def entries (third : String) (t : TableState) : Set Entry :=
  {x | ∃ r ∈ t.records, entryOf third r = x}

def userKey (message user : Int64) : Pattern :=
  [("messageId", .integer message), ("userId", .integer user)]

section

variable {third : String} {t t' : TableState} {message user : Int64}

theorem meets_userKey (third : String) (r : Record) :
    r.meets (userKey message user) = (entryOf third r).on message user := by
  simp [Record.meets, userKey, entryOf, Entry.on]

theorem mem_entries {x : Entry} : x ∈ entries third t ↔ ∃ r ∈ t.records, entryOf third r = x :=
  Iff.rfl

theorem mem_entries_of {r : Record} (hr : r ∈ t.records) : entryOf third r ∈ entries third t :=
  ⟨r, hr, rfl⟩

theorem eq_of_equals_integer {v : Value} {i j : Int64} (hi : v.equals (.integer i))
    (hj : v.equals (.integer j)) : i = j := by
  rw [Value.equals_comm] at hi hj
  have hij := Value.equals_of_common rfl hi hj
  simpa [Value.equals, eq_comm] using hij

theorem Entry.on_unique {x : Entry} {message' user' : Int64} (h : x.on message user)
    (h' : x.on message' user') : message = message' ∧ user = user' := by
  simp only [Entry.on, Bool.and_eq_true] at h h'
  exact ⟨eq_of_equals_integer h.1 h'.1, eq_of_equals_integer h.2 h'.2⟩

@[simp] theorem entries_useId (id : Int64) : entries third (t.useId id) = entries third t := rfl

theorem entries_put (r : Record) :
    entries third (t.put r) = insert (entryOf third r) (entries third t) := by
  ext x
  simp only [mem_entries, TableState.mem_put, Set.mem_insert_iff]
  constructor
  · rintro ⟨s, rfl | hs, rfl⟩
    · exact .inl rfl
    · exact .inr ⟨s, hs, rfl⟩
  · rintro (rfl | ⟨s, hs, rfl⟩)
    · exact ⟨r, .inl rfl, rfl⟩
    · exact ⟨s, .inr hs, rfl⟩

def held (third : String) (t : TableState) (message user : Int64) : List Value :=
  (t.records.filter (·.meets (userKey message user))).map (·.get third)

theorem held_eq_nil : held third t message user = [] ↔
    ∀ x ∈ entries third t, x.on message user = false := by
  simp only [held, List.map_eq_nil_iff, List.filter_eq_nil_iff, Bool.not_eq_true]
  constructor
  · rintro h _ ⟨r, hr, rfl⟩
    rw [← meets_userKey]
    exact h r hr
  · intro h r hr
    rw [meets_userKey third]
    exact h _ (mem_entries_of hr)

theorem entries_without : entries third (t.without (userKey message user)) =
    {x ∈ entries third t | x.on message user = false} := by
  ext x
  simp only [mem_entries, TableState.mem_without, Set.mem_ofPred_eq]
  constructor
  · rintro ⟨r, ⟨hr, hm⟩, rfl⟩
    exact ⟨⟨r, hr, rfl⟩, meets_userKey third r ▸ hm⟩
  · rintro ⟨⟨r, hr, rfl⟩, hm⟩
    exact ⟨r, ⟨hr, (meets_userKey third r).trans hm⟩, rfl⟩

end

section Known

structure Known (db : Database) (message user : Int64) : Prop where
  message : db.hasId Schema.messages.name (.integer message)
  user : db.hasId Schema.users.name (.integer user)

def userValues (message user : Int64) (c : Column) (v : Value) : Assignment :=
  [(.reference "messageId" Schema.messages.name, .integer message),
    (.reference "userId" Schema.users.name, .integer user), (c, v)]

def seeded (votes reactions : TableState) : Database :=
  { tables :=
      [{ schema := Schema.users
         records := [⟨7, [("username", .text "ada"), ("email", .text "ada@mail"),
           ("passwordHash", .text "x"), ("createdAt", .text ""), ("updatedAt", .text "")]⟩] },
        { schema := Schema.messages
          records := [⟨1, [("userId", .integer 7), ("title", .text "a"), ("content", .text "b"),
            ("createdAt", .text "")]⟩] },
        { schema := Schema.comments }, votes, reactions] }

theorem shaped_seeded {votes reactions : TableState} (hv : votes.schema = Schema.votes)
    (hr : reactions.schema = Schema.reactions) : Shaped (seeded votes reactions) :=
  ⟨by simp [seeded, hv, hr, Schema.tables]⟩

theorem known_seeded (votes reactions : TableState) : Known (seeded votes reactions) 1 7 := by
  have husers : Read.fold "users" ≠ Read.fold "messages" := by decide +kernel
  constructor <;>
    simp [Database.hasId, Database.table?, seeded, Schema.users, Schema.messages, husers]

theorem seeded_votes {votes reactions : TableState} (hv : votes.schema = Schema.votes)
    (hr : reactions.schema = Schema.reactions) :
    (seeded votes reactions).at Schema.votes = votes := by
  have hmem : votes ∈ (seeded votes reactions).tables := by simp [seeded]
  exact (hv ▸ (shaped_seeded hv hr).eq_at hmem).symm

theorem seeded_reactions {votes reactions : TableState} (hv : votes.schema = Schema.votes)
    (hr : reactions.schema = Schema.reactions) :
    (seeded votes reactions).at Schema.reactions = reactions := by
  have hmem : reactions ∈ (seeded votes reactions).tables := by simp [seeded]
  exact (hr ▸ (shaped_seeded hv hr).eq_at hmem).symm

variable {db : Database} {message user : Int64} {c : Column} {v : Value}

theorem Known.parents (h : Known db message user) (hc : c.parent = none) (d : Column) (x : Value)
    (parent : String) (hd : (d, x) ∈ userValues message user c v)
    (hparent : d.parent = some parent) : db.hasId parent x := by
  simp only [userValues, List.mem_cons, Prod.mk.injEq, List.not_mem_nil, or_false] at hd
  rcases hd with ⟨rfl, rfl⟩ | ⟨rfl, rfl⟩ | ⟨rfl, rfl⟩
  · cases hparent
    exact h.message
  · cases hparent
    exact h.user
  · rw [hc] at hparent
    cases hparent

theorem entryOf_newRecord {t : Table} (hreg : Regular t)
    (h : Complete t (userValues message user c v)) (id : Int64) :
    entryOf c.name (newRecord id (userValues message user c v)) =
      (.integer message, .integer user, v) := by
  have hmessage := h.get_newRecord hreg id
    (c := .reference "messageId" Schema.messages.name) (v := .integer message) (.head _)
  have huser := h.get_newRecord hreg id
    (c := .reference "userId" Schema.users.name) (v := .integer user) (.tail _ (.head _))
  have hthird := h.get_newRecord hreg id (c := c) (v := v) (.tail _ (.tail _ (.head _)))
  rw [entryOf, hthird]
  exact Prod.ext hmessage (Prod.ext huser rfl)

end Known

section Marks

/-- A table of what users leave on messages, with one column for what it is. -/
structure Marks (t : Table) (c : Column) : Prop where
  leaf : Leaf t
  columns : t.columns = [.id, .reference "messageId" Schema.messages.name,
    .reference "userId" Schema.users.name, c]

def markStatement (t : Table) (c : Column) (message user : Int64) (v : Value) : Statement :=
  .insert t.name (some ["messageId", "userId", c.name])
    (.values [[.value (.integer message), .value (.integer user), .value v]]) none []

variable {t : Table} {c : Column} {message user : Int64} {v : Value}

namespace Marks

theorem columnOf?_message (h : Marks t c) :
    columnOf? t "messageId" = some (.reference "messageId" Schema.messages.name) :=
  columnOf?_eq h.leaf.mem (by simp [h.columns]) rfl

theorem columnOf?_user (h : Marks t c) :
    columnOf? t "userId" = some (.reference "userId" Schema.users.name) :=
  columnOf?_eq h.leaf.mem (by simp [h.columns]) rfl

theorem columnOf?_third (h : Marks t c) : columnOf? t c.name = some c :=
  columnOf?_eq h.leaf.mem (by simp [h.columns]) rfl

theorem isColumn_message (h : Marks t c) :
    IsColumn t (.columnOrText "messageId") (.reference "messageId" Schema.messages.name) :=
  .quoted h.columnOf?_message

theorem isColumn_user (h : Marks t c) :
    IsColumn t (.columnOrText "userId") (.reference "userId" Schema.users.name) :=
  .quoted h.columnOf?_user

theorem isColumn_third (h : Marks t c) : IsColumn t (.column none c.name) c :=
  .name h.columnOf?_third

theorem columnsOf_names (h : Marks t c) (message user : Int64) (v : Value) :
    Insertion.columnsOf { schema := t } (some ["messageId", "userId", c.name]) =
      .ok ((userValues message user c v).map (·.1)) := by
  simp only [Insertion.columnsOf, List.mapM_cons, List.mapM_nil, h.columnOf?_message,
    h.columnOf?_user, h.columnOf?_third]
  rfl

theorem complete (h : Marks t c) (hv : Admits c v) : Complete t (userValues message user c v) where
  columns := by
    have hplain := (regular_of_mem h.leaf.mem).columns.symm.trans h.columns
    exact (List.cons.inj hplain).2.symm
  admitted := by
    simp only [userValues, List.mem_cons, List.not_mem_nil, or_false, forall_eq_or_imp, forall_eq]
    exact ⟨⟨rfl, rfl, rfl⟩, ⟨rfl, rfl, rfl⟩, hv⟩

theorem oneRow (h : Marks t c) {s : Agora.Store} (hs : Ready s) : OneRow s [] t
    (some ["messageId", "userId", c.name])
    (.values [[.value (.integer message), .value (.integer user), .value v]])
    (userValues message user c v) :=
  .of_operands hs h.leaf.mem rfl (h.columnsOf_names message user v)
    (.cons (.value _) <| .cons (.value _) <| .cons (.value _) .nil)

section Execution

variable {sql : String} {s : Agora.Store} {db : Database} (h : Marks t c)
  (hreads : Reads sql (markStatement t c message user v) 0) (hs : Rests s db) (hdb : Shaped db)
include h hreads hs hdb

theorem execute_refused {e : StatementError}
    (hinsert : (db.at t).insert s.now none (userValues message user c v) = .error e) :
    s.execute ⟨sql, []⟩ = (.error (.database sql e), { s with changes := 0 }) := by
  obtain rfl := hs.database
  exact execute_insert_error hreads (hs.ready hdb) h.leaf (h.oneRow (hs.ready hdb)) rfl rfl hinsert

theorem execute_full (hv : Admits c v) (hid : (db.at t).nextId? = none) : s.execute ⟨sql, []⟩ =
    (.error (.database sql (.other "database or disk is full")), { s with changes := 0 }) := by
  have hcomplete : Complete (db.at t).schema (userValues message user c v) :=
    (hdb.at_schema h.leaf.mem).symm ▸ h.complete hv
  exact h.execute_refused hreads hs hdb (insert_full hcomplete hid s.now none)

theorem execute_left (hv : Admits c v) (hc : c.parent = none) (hknown : Known db message user)
    {id : Int64} (hinsert : (db.at t).insert s.now none (userValues message user c v) =
      .ok (newRecord id (userValues message user c v),
        ((db.at t).useId id).put (newRecord id (userValues message user c v)))) :
    s.execute ⟨sql, []⟩ = (.ok [], changedTo s 1
      (db.replace (((db.at t).useId id).put (newRecord id (userValues message user c v))))) := by
  obtain rfl := hs.database
  exact execute_insert hreads (hs.ready hdb) h.leaf (h.oneRow (hs.ready hdb)) rfl rfl hinsert
    (keeps_newRecord hdb h.leaf (h.complete hv) (hknown.parents hc) id)

end Execution

end Marks

end Marks

section Becomes

/-- Only one table has changed, to a lawful one with certain entries. -/
def Becomes (t : Table) (third : String) (S : Set Entry) (db db' : Database) : Prop :=
  ∃ u, u.schema = t ∧ Lawful u ∧ entries third u = S ∧ db' = db.replace u

variable {t : Table} {third : String} {S : Set Entry} {db db' : Database}

namespace Becomes

theorem of_replace {u : TableState} (hschema : u.schema = t) (hl : Lawful u)
    (hS : entries third u = S) : Becomes t third S db (db.replace u) :=
  ⟨u, hschema, hl, hS, rfl⟩

theorem shaped (h : Becomes t third S db db') (ht : Leaf t) (hdb : Shaped db) : Shaped db' := by
  obtain ⟨u, rfl, -, -, rfl⟩ := h
  exact hdb.replace ht.mem

theorem lawful (h : Becomes t third S db db') (ht : Leaf t) (hdb : Shaped db) :
    Lawful (db'.at t) := by
  obtain ⟨u, rfl, hl, -, rfl⟩ := h
  rwa [hdb.at_replace_self ht.mem]

theorem entries (h : Becomes t third S db db') (ht : Leaf t) (hdb : Shaped db) :
    entries third (db'.at t) = S := by
  obtain ⟨u, rfl, -, hS, rfl⟩ := h
  rwa [hdb.at_replace_self ht.mem]

theorem other (h : Becomes t third S db db') (ht : Leaf t) (hdb : Shaped db) {u : Table}
    (hu : u ∈ Schema.tables) (hne : u ≠ t) : db'.at u = db.at u := by
  obtain ⟨v, rfl, -, -, rfl⟩ := h
  exact hdb.at_replace_of_ne ht.mem hu hne

theorem hasId (h : Becomes t third S db db') (ht : Leaf t) (hdb : Shaped db) {u : Table}
    (hu : u ∈ Schema.tables) (hne : u ≠ t) (v : Value) :
    db'.hasId u.name v = db.hasId u.name v := by
  rw [Database.hasId, Database.hasId, (h.shaped ht hdb).table?_at hu, hdb.table?_at hu,
    h.other ht hdb hu hne]

theorem known (h : Becomes t third S db db') (ht : Leaf t) (hdb : Shaped db)
    {message user : Int64} (hknown : Known db message user) : Known db' message user where
  message := by
    rw [h.hasId ht hdb (u := Schema.messages) (by decide) ?_]
    · exact hknown.message
    · rintro rfl
      exact ht.childless Schema.votes (by decide) (.reference "messageId" "messages") (by decide) rfl
  user := by
    rw [h.hasId ht hdb (u := Schema.users) (by decide) ?_]
    · exact hknown.user
    · rintro rfl
      exact ht.childless Schema.votes (by decide) (.reference "userId" "users") (by decide) rfl

end Becomes

structure Orderly (db : Database) : Prop where
  shaped : Shaped db
  votes : Lawful (db.at Schema.votes)
  reactions : Lawful (db.at Schema.reactions)

theorem Becomes.orderly (h : Becomes t third S db db') (ht : Leaf t) (hdb : Orderly db) :
    Orderly db' := by
  have hlawful {u : Table} (hu : Leaf u) (hl : Lawful (db.at u)) : Lawful (db'.at u) := by
    by_cases hut : u = t
    · exact hut ▸ h.lawful ht hdb.shaped
    · rwa [h.other ht hdb.shaped hu.mem hut]
  exact ⟨h.shaped ht hdb.shaped, hlawful leaf_votes hdb.votes, hlawful leaf_reactions hdb.reactions⟩

end Becomes

end Agora.Store
