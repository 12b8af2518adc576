import DeviceSleep.Proofs.Toml.Keys

/-! Sections put together. The pairs of a section are the fields of one table; a header adds a table to
those under the same first name, and the headers of elements add to a list in the table that came last. -/
namespace DeviceSleep.Toml
set_option autoImplicit false

variable {name : String} {fields : List (String × Tree)} {ls : List Line}

/-! ## Pairs -/

/-- A pair of a plain name for each field. -/
def pairLines (fields : List (String × Tree)) : List Line :=
  fields.map fun field => .pair ([field.1], field.2)

theorem pairLines_append (fields more : List (String × Tree)) :
    pairLines (fields ++ more) = pairLines fields ++ pairLines more :=
  List.map_append

/-- The pairs of a section that follows a header. -/
def plainPairs (fields : List (String × Tree)) : List Pair :=
  fields.map fun field => ([field.1], field.2)

/-- No further pair stands at the front. -/
def Headed (ls : List Line) : Prop := ∀ pair, ls.head? ≠ some (.pair pair)

theorem sectionPairs_pairLines (hls : Headed ls) (fields : List (String × Tree)) :
    sectionPairs (pairLines fields ++ ls) = plainPairs fields := by
  induction fields with
  | nil =>
    cases ls with
    | nil => rfl
    | cons l ls =>
      cases l with
      | pair pair => exact absurd rfl (hls pair)
      | header path => rfl
      | element path => rfl
  | cons field fields ih => exact congrArg (([field.1], field.2) :: ·) ih

theorem addSections_pairLines (fields : List (String × Tree)) (ls : List Line)
    (entries : Node.Entries) :
    addSections (pairLines fields ++ ls) entries = addSections ls entries := by
  induction fields with
  | nil => rfl
  | cons field fields ih => exact ih

namespace Node

variable {entries front : Entries} {f : Option Node → Option Node}

/-- The entries of a table that has nothing but fields. -/
def values (fields : List (String × Tree)) : Entries :=
  fields.map fun field => (field.1, .value field.2)

theorem names_values (fields : List (String × Tree)) :
    names (values fields) = fields.map Prod.fst := by
  rw [names, values, List.map_map]
  rfl

theorem modify_append (h : name ∉ names front) (back : Entries) :
    modify name f (front ++ back) = (modify name f back).map (front ++ ·) := by
  induction front with
  | nil => exact Option.map_id'.symm
  | cons entry front ih =>
    obtain ⟨key, node⟩ := entry
    rw [names, List.map_cons, List.mem_cons, not_or] at h
    rw [List.cons_append, modify, if_neg (Ne.symm h.1), ih h.2, Option.map_map]
    rfl

theorem modify_new (h : name ∉ names entries) :
    modify name f entries = (f none).map fun node => entries ++ [(name, node)] := by
  have happend := modify_append (f := f) h []
  rw [List.append_nil, modify, Option.map_map] at happend
  exact happend

theorem modify_last (h : name ∉ names front) (node : Node) :
    modify name f (front ++ [(name, node)]) =
      (f (some node)).map fun node => front ++ [(name, node)] := by
  rw [modify_append h, modify, if_pos rfl, Option.map_map]
  rfl

/-- Fields of different names are added in order. -/
theorem insertAll_plainPairs (h : (names entries ++ fields.map Prod.fst).Nodup) :
    insertAll (plainPairs fields) entries = some (entries ++ values fields) := by
  induction fields generalizing entries with
  | nil => exact congrArg some (List.append_nil entries).symm
  | cons field fields ih =>
    have hnew : field.1 ∉ names entries := fun hmem =>
      (List.nodup_append.mp h).2.2 _ hmem _ List.mem_cons_self rfl
    have hnext : (names (entries ++ [(field.1, value field.2)]) ++ fields.map Prod.fst).Nodup := by
      rw [names, List.map_append, List.append_assoc]
      exact h
    show (insert field.2 [field.1] entries).bind (insertAll (plainPairs fields)) = _
    rw [insert, modify_new hnew]
    show insertAll (plainPairs fields) (entries ++ [(field.1, value field.2)]) = _
    rw [ih hnext, List.append_assoc]
    rfl

theorem ofPairs_plainPairs (h : (fields.map Prod.fst).Nodup) :
    ofPairs (plainPairs fields) = some (values fields) := by
  have hall : insertAll (plainPairs fields) [] = some ([] ++ values fields) := insertAll_plainPairs h
  exact hall

end Node

/-! ## Tables -/

/-- A table that is written under its own header, in a table that has no header: its fields, and the
elements of one list in it. -/
structure Table where
  name : String
  fields : List (String × Tree)
  elements : List (List (String × Tree))

namespace Table

variable {outer inner : String} {table : Table}

/-- The lines of a table, given the names of the table around it and of the list in it. -/
def lines (outer inner : String) (table : Table) : List Line :=
  .header [outer, table.name] :: (pairLines table.fields ++
    table.elements.flatMap fun element => .element [outer, table.name, inner] :: pairLines element)

/-- The list as an entry, unless it has no elements. -/
def listed (inner : String) (elements : List (List (String × Tree))) : Node.Entries :=
  if elements.isEmpty then [] else [(inner, .tables (elements.reverse.map Node.values))]

def entry (inner : String) (table : Table) : String × Node :=
  (table.name, .table .header (Node.values table.fields ++ listed inner table.elements))

/-- The tables as an entry, unless there are none. -/
def held (outer : String) (done : Node.Entries) : Node.Entries :=
  if done.isEmpty then [] else [(outer, .table .passed done)]

/-- No name is written twice. -/
structure Plain (inner : String) (table : Table) : Prop where
  fields : (table.fields.map Prod.fst).Nodup
  elements : ∀ element ∈ table.elements, (element.map Prod.fst).Nodup
  free : table.elements ≠ [] → inner ∉ table.fields.map Prod.fst

variable {front done : Node.Entries} {name : String} {fields : List (String × Tree)}
  {element : List (String × Tree)} {elements : List (List (String × Tree))}

theorem held_concat (outer : String) (done : Node.Entries) (last : String × Node) :
    held outer (done ++ [last]) = [(outer, .table .passed (done ++ [last]))] := by
  cases done <;> rfl

/-- A header adds a table behind those that are there. -/
theorem under_header (houter : outer ∉ Node.names front) (hname : name ∉ Node.names done)
    (hfields : (fields.map Prod.fst).Nodup) :
    Node.under (Node.openTable (plainPairs fields)) [outer, name] (front ++ held outer done) =
      some (front ++ held outer (done ++ [(name, .table .header (Node.values fields))])) := by
  have hopen : Node.openTable (plainPairs fields) name done =
      some (done ++ [(name, .table .header (Node.values fields))]) := by
    have hnone : done.lookup name = none := by
      refine List.lookup_eq_none_iff.mpr fun entry hentry => bne_iff_ne.mpr ?_
      rintro rfl
      exact hname (List.mem_map_of_mem hentry)
    rw [Node.openTable, hnone, Node.ofPairs_plainPairs hfields]
    rfl
  rw [held_concat, Node.under]
  cases done with
  | nil =>
    show Node.modify outer _ (front ++ []) = _
    rw [List.append_nil, Node.modify_new houter]
    show ((Node.openTable (plainPairs fields) name []).map (Node.table .passed)).map _ = _
    rw [hopen]
    rfl
  | cons entry rest =>
    show Node.modify outer _ (front ++ [(outer, .table .passed (entry :: rest))]) = _
    rw [Node.modify_last houter]
    show ((Node.openTable (plainPairs fields) name (entry :: rest)).map (Node.table .passed)).map _ = _
    rw [hopen]
    rfl

theorem listed_concat (inner : String) (elements : List (List (String × Tree)))
    (element : List (String × Tree)) : listed inner (elements ++ [element]) =
      [(inner, .tables (Node.values element :: elements.reverse.map Node.values))] := by
  have hsome : (elements ++ [element]).isEmpty = false := by simp
  rw [listed, hsome, List.reverse_append, List.map_append]
  rfl

theorem appendTable_listed (hinner : inner ∉ fields.map Prod.fst)
    (helement : (element.map Prod.fst).Nodup) :
    Node.appendTable (plainPairs element) inner (Node.values fields ++ listed inner elements) =
      some (Node.values fields ++ listed inner (elements ++ [element])) := by
  rw [← Node.names_values] at hinner
  rw [listed_concat, Node.appendTable]
  cases elements with
  | nil =>
    show Node.modify inner _ (Node.values fields ++ []) = _
    rw [List.append_nil, Node.modify_new hinner]
    dsimp only
    rw [Node.ofPairs_plainPairs helement]
    rfl
  | cons first rest =>
    show Node.modify inner _ (Node.values fields ++
      [(inner, .tables ((first :: rest).reverse.map Node.values))]) = _
    rw [Node.modify_last hinner]
    dsimp only
    rw [Node.ofPairs_plainPairs helement]
    rfl

/-- A header of an element adds one to the list of the last table. -/
theorem under_element (houter : outer ∉ Node.names front) (hname : name ∉ Node.names done)
    (hinner : inner ∉ fields.map Prod.fst) (helement : (element.map Prod.fst).Nodup) :
    Node.under (Node.appendTable (plainPairs element)) [outer, name, inner]
      (front ++ held outer
        (done ++ [(name, .table .header (Node.values fields ++ listed inner elements))])) =
      some (front ++ held outer (done ++
        [(name, .table .header (Node.values fields ++ listed inner (elements ++ [element])))])) := by
  have happend : Node.appendTable (plainPairs element) inner
      (Node.values fields ++ listed inner elements) =
      some (Node.values fields ++ listed inner (elements ++ [element])) :=
    appendTable_listed hinner helement
  rw [held_concat, held_concat, Node.under, Node.modify_last houter]
  show ((Node.under _ [name, inner] (done ++ _)).map (Node.table .passed)).map _ = _
  rw [Node.under, Node.modify_last hname]
  show ((((Node.appendTable (plainPairs element) inner (Node.values fields ++ listed inner elements)).map
    (Node.table .header)).map _).map (Node.table .passed)).map _ = _
  rw [happend]
  rfl

theorem headed_elements (hls : Headed ls) (outer inner name : String)
    (elements : List (List (String × Tree))) :
    Headed (elements.flatMap (fun element => .element [outer, name, inner] :: pairLines element) ++
      ls) := by
  cases elements with
  | nil => exact hls
  | cons element elements => exact nofun

theorem addSections_elements (houter : outer ∉ Node.names front) (hname : name ∉ Node.names done)
    (hinner : inner ∉ fields.map Prod.fst) (hls : Headed ls)
    (helements : ∀ element ∈ elements, (element.map Prod.fst).Nodup)
    (earlier : List (List (String × Tree))) :
    addSections (elements.flatMap (fun element =>
        .element [outer, name, inner] :: pairLines element) ++ ls)
      (front ++ held outer
        (done ++ [(name, .table .header (Node.values fields ++ listed inner earlier))])) =
      addSections ls (front ++ held outer (done ++
        [(name, .table .header (Node.values fields ++ listed inner (earlier ++ elements)))])) := by
  induction elements generalizing earlier with
  | nil => rw [List.append_nil]; rfl
  | cons element elements ih =>
    obtain ⟨helement, hrest⟩ := List.forall_mem_cons.mp helements
    have hheaded := headed_elements hls outer inner name elements
    rw [List.flatMap_cons, List.cons_append, List.cons_append, List.append_assoc, addSections,
      sectionPairs_pairLines hheaded, under_element houter hname hinner helement, Option.bind_some,
      addSections_pairLines, ih hrest, List.append_assoc]
    rfl

/-- A table and its list are added behind the tables that are there. -/
theorem addSections_lines (houter : outer ∉ Node.names front)
    (hname : table.name ∉ Node.names done) (htable : table.Plain inner) (hls : Headed ls) :
    addSections (table.lines outer inner ++ ls) (front ++ held outer done) =
      addSections ls (front ++ held outer (done ++ [table.entry inner])) := by
  have hheaded := headed_elements hls outer inner table.name table.elements
  rw [lines, List.cons_append, List.append_assoc, addSections, sectionPairs_pairLines hheaded,
    under_header houter hname htable.fields, Option.bind_some, addSections_pairLines]
  by_cases hempty : table.elements = []
  · rw [entry, hempty]
    show addSections ls _ = addSections ls (front ++ held outer (done ++
      [(table.name, .table .header (Node.values table.fields ++ []))]))
    rw [List.append_nil]
  · have hadd := addSections_elements houter hname (htable.free hempty) hls htable.elements []
    rw [List.nil_append] at hadd
    rw [entry, ← hadd]
    show addSections _ _ = addSections _ (front ++ held outer (done ++
      [(table.name, .table .header (Node.values table.fields ++ []))]))
    rw [List.append_nil]

theorem headed_tables (outer inner : String) (tables : List Table) :
    Headed (tables.flatMap (lines outer inner)) := by
  cases tables <;> exact nofun

/-- Tables of different names are added in order. -/
theorem addSections_tables (houter : outer ∉ Node.names front) {tables : List Table}
    (htables : ∀ table ∈ tables, table.Plain inner)
    (hnames : (Node.names done ++ tables.map Table.name).Nodup) :
    addSections (tables.flatMap (lines outer inner)) (front ++ held outer done) =
      some (front ++ held outer (done ++ tables.map (entry inner))) := by
  induction tables generalizing done with
  | nil => rw [List.map_nil, List.append_nil]; rfl
  | cons table tables ih =>
    obtain ⟨htable, hrest⟩ := List.forall_mem_cons.mp htables
    have hname : table.name ∉ Node.names done := fun hmem =>
      (List.nodup_append.mp hnames).2.2 _ hmem _ List.mem_cons_self rfl
    have hnext : (Node.names (done ++ [table.entry inner]) ++ tables.map Table.name).Nodup := by
      rw [Node.names, List.map_append, List.append_assoc]
      exact hnames
    rw [List.flatMap_cons, addSections_lines houter hname htable (headed_tables outer inner tables),
      ih hrest hnext, List.append_assoc]
    rfl

/-- Fields at the top, and tables behind them. -/
theorem assemble_tables (hfields : (fields.map Prod.fst).Nodup) (houter : outer ∉ fields.map Prod.fst)
    {tables : List Table} (htables : ∀ table ∈ tables, table.Plain inner)
    (hnames : (tables.map Table.name).Nodup) :
    assemble (pairLines fields ++ tables.flatMap (lines outer inner)) =
      some (Node.values fields ++ held outer (tables.map (entry inner))) := by
  rw [← Node.names_values] at houter
  have hadd : addSections (tables.flatMap (lines outer inner))
      (Node.values fields ++ held outer []) =
      some (Node.values fields ++ held outer ([] ++ tables.map (entry inner))) :=
    addSections_tables houter htables hnames
  rw [held, List.isEmpty_nil, if_pos rfl, List.append_nil, List.nil_append] at hadd
  rw [assemble, sectionPairs_pairLines (headed_tables outer inner tables),
    Node.ofPairs_plainPairs hfields, Option.bind_some, addSections_pairLines, hadd]

/-- The finished table. -/
def tree (inner : String) (table : Table) : Tree :=
  .table (table.fields ++
    if table.elements.isEmpty then [] else [(inner, .list (table.elements.map Tree.table))])

end Table

namespace Node

theorem trees_append (front back : Entries) : trees (front ++ back) = trees front ++ trees back := by
  rw [trees_eq_map, trees_eq_map, trees_eq_map, List.map_append]

theorem trees_values (fields : List (String × Tree)) : trees (values fields) = fields := by
  rw [trees_eq_map, values, List.map_map]
  refine (List.map_congr_left fun field _ => ?_).trans (List.map_id fields)
  show (field.1, (Node.value field.2).tree) = field
  rw [Node.tree]

theorem elementTrees_eq (elements : List Entries) (done : List Tree) :
    elementTrees elements done =
      (elements.map fun element => Tree.table (trees element)).reverse ++ done := by
  induction elements generalizing done with
  | nil => rw [elementTrees]; rfl
  | cons element elements ih =>
    rw [elementTrees, ih, List.map_cons, List.reverse_cons, List.append_assoc]
    rfl

theorem trees_listed (inner : String) (elements : List (List (String × Tree))) :
    trees (Table.listed inner elements) =
      if elements.isEmpty then [] else [(inner, .list (elements.map Tree.table))] := by
  rw [Table.listed]
  split
  · rw [trees]
  · rw [trees, trees, Node.tree, elementTrees_eq, List.append_nil, List.map_reverse, List.map_reverse,
      List.reverse_reverse, List.map_map]
    have helements : (fun element => Tree.table (trees element)) ∘ values = Tree.table := by
      funext element
      exact congrArg Tree.table (trees_values element)
    rw [helements]

theorem trees_entries (inner : String) (tables : List Table) :
    trees (tables.map (Table.entry inner)) = tables.map fun table => (table.name, table.tree inner) := by
  rw [trees_eq_map, List.map_map]
  refine List.map_congr_left fun table _ => ?_
  show (table.name, (Node.table .header _).tree) = (table.name, table.tree inner)
  rw [Node.tree, trees_append, trees_values, trees_listed]
  rfl

end Node

end DeviceSleep.Toml
