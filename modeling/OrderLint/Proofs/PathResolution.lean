import OrderLint.Proofs.FileTrees

/-!
# Where paths lead

A path that leads to a node does so in steps, one for each component and one for each link, and it
can be continued from a directory that it leads to. If it gets there without a link, its clean form
leads to the same directory: cleaning drops a name together with the double dot behind it, and the
two steps end where they began. So an entry of a directory is found under the clean path that is
made of the path of the directory and its name, if the directory may be passed through.
-/
namespace OrderLint

namespace Location

section Step

variable {place next : Location} {component : Bytes}

theorem step_nil : place.step [] = .ok (.place place) := rfl

theorem step_denied (hcomponent : component ≠ []) (h : place.here.access.search = false) :
    place.step component = .error .denied := by
  simp [step, hcomponent, h]

theorem step_directory
    (hproper : component ≠ [] ∧ component ≠ utf8 "." ∧ component ≠ utf8 "..")
    (hsearch : place.here.access.search = true) {access : Access} {entries : Entries}
    (hchild : place.here.entries.child? component = some (.directory access entries)) :
    place.step component = .ok (.place (place.enter ⟨access, entries⟩)) := by
  simp [step, hproper, hsearch, hchild]

theorem step_cases (h : place.step component = .ok (.place next)) :
    (component = [] ∧ next = place) ∨ place.here.access.search = true ∧
      ((component = utf8 "." ∧ next = place) ∨ (component = utf8 ".." ∧ next = place.parent) ∨
        (component ≠ [] ∧ component ≠ utf8 "." ∧ component ≠ utf8 "..") ∧ ∃ access entries,
          place.here.entries.child? component = some (.directory access entries) ∧
            next = place.enter ⟨access, entries⟩) := by
  rw [step] at h
  split_ifs at h with hnil hsearch hdot hdots
  · cases h
    exact .inl ⟨hnil, rfl⟩
  · cases h
    exact .inr ⟨by simpa using hsearch, .inl ⟨hdot, rfl⟩⟩
  · cases h
    exact .inr ⟨by simpa using hsearch, .inr (.inl ⟨hdots, rfl⟩)⟩
  · refine .inr ⟨by simpa using hsearch, .inr (.inr ⟨⟨hnil, hdot, hdots⟩, ?_⟩)⟩
    split at h
    case h_4 access entries hchild =>
      cases h
      exact ⟨access, entries, hchild, rfl⟩
    all_goals cases h

end Step

section Resolve

variable {keep : Bool} {links : Nat} {place next : Location} {component : Bytes}

theorem resolve_nil : place.resolve keep links [] = .ok place.here.node := by
  cases links <;> rfl

theorem resolve_error {fault : FileFault} (h : place.step component = .error fault)
    (rest : List Bytes) : place.resolve keep links (component :: rest) = .error fault := by
  cases links <;> simp [resolve, follow, h]

theorem resolve_through (h : place.step component = .ok (.place next)) (rest : List Bytes) :
    place.resolve keep links (component :: rest) = next.resolve keep links rest := by
  cases links <;> simp [resolve, follow, h]

theorem resolve_file {content : Option Bytes} (h : place.step component = .ok (.file content))
    (rest : List Bytes) : place.resolve keep links (component :: rest) =
      if rest = [] then .ok (.file content) else .error .notDirectory := by
  cases links <;> simp [resolve, follow, h]

theorem resolve_link {target : Bytes} (h : place.step component = .ok (.link target)) :
    place.resolve true links [component] = .ok (.link target) := by
  cases links <;> simp [resolve, follow, h]

theorem resolve_jump {target : Bytes} (h : place.step component = .ok (.link target))
    {rest : List Bytes} (hrest : ¬ (keep = true ∧ rest = [])) :
    place.resolve keep (links + 1) (component :: rest) =
      (place.start target).resolve keep links (target.splitAt Path.separator ++ rest) := by
  rw [resolve, follow, h]
  simp only [hrest, if_false]

theorem resolve_tooManyLinks {target : Bytes} (h : place.step component = .ok (.link target))
    {rest : List Bytes} (hrest : ¬ (keep = true ∧ rest = [])) :
    place.resolve keep 0 (component :: rest) = .error .tooManyLinks := by
  rw [resolve, follow, h]
  simp only [hrest, if_false]

/-- Components lead from a place to a node, through so many links at most. -/
inductive Leads (keep : Bool) : Nat → Location → List Bytes → FileNode → Prop
  | here (links : Nat) (place : Location) : Leads keep links place [] place.here.node
  | through {links : Nat} {place next : Location} {component : Bytes} {rest : List Bytes}
      {node : FileNode} (hstep : place.step component = .ok (.place next))
      (hrest : Leads keep links next rest node) : Leads keep links place (component :: rest) node
  | file {links : Nat} {place : Location} {component : Bytes} {content : Option Bytes}
      (hstep : place.step component = .ok (.file content)) :
      Leads keep links place [component] (.file content)
  | link {links : Nat} {place : Location} {component target : Bytes} (hkeep : keep = true)
      (hstep : place.step component = .ok (.link target)) :
      Leads keep links place [component] (.link target)
  | jump {links : Nat} {place : Location} {component target : Bytes} {rest : List Bytes}
      {node : FileNode} (hstep : place.step component = .ok (.link target))
      (hend : ¬ (keep = true ∧ rest = []))
      (hrest : Leads keep links (place.start target) (target.splitAt Path.separator ++ rest) node) :
      Leads keep (links + 1) place (component :: rest) node

theorem leads_of_resolve {components : List Bytes} {node : FileNode}
    (h : place.resolve keep links components = .ok node) :
    Leads keep links place components node := by
  induction links using Nat.strong_induction_on generalizing place components with
  | _ links ihLinks =>
    induction components generalizing place with
    | nil =>
      cases resolve_nil.symm.trans h
      exact .here links place
    | cons component rest ih =>
      cases hstep : place.step component with
      | error fault => cases (resolve_error hstep rest).symm.trans h
      | ok reached =>
        cases reached with
        | place next => exact .through hstep (ih ((resolve_through hstep rest).symm.trans h))
        | file content =>
          rw [resolve_file hstep] at h
          split_ifs at h with hrest
          cases h
          exact hrest ▸ .file hstep
        | link target =>
          by_cases hend : keep = true ∧ rest = []
          · obtain ⟨rfl, rfl⟩ := hend
            cases (resolve_link hstep).symm.trans h
            exact .link rfl hstep
          · cases links with
            | zero => cases (resolve_tooManyLinks hstep hend).symm.trans h
            | succ links =>
              have hjump := (resolve_jump hstep hend).symm.trans h
              exact .jump hstep hend (ihLinks links (Nat.lt_succ_self links) hjump)

variable {components : List Bytes} {node : FileNode}

theorem Leads.resolve_append {directory : Directory} (hnode : node = directory.node)
    (h : Leads false links place components node) :
    ∃ (fewer : Nat) (inner : Location), inner.here = directory ∧ ∀ rest,
      place.resolve false links (components ++ rest) = inner.resolve false fewer rest := by
  induction h with
  | here links place => exact ⟨links, place, Directory.node_injective hnode, fun _ => rfl⟩
  | through hstep _ ih =>
    obtain ⟨fewer, inner, hinner, hrest⟩ := ih hnode
    refine ⟨fewer, inner, hinner, fun rest => ?_⟩
    rw [List.cons_append, resolve_through hstep, hrest]
  | file hstep => cases hnode
  | link hkeep hstep => cases hkeep
  | jump hstep hend _ ih =>
    obtain ⟨fewer, inner, hinner, hrest⟩ := ih hnode
    refine ⟨fewer, inner, hinner, fun rest => ?_⟩
    rw [List.cons_append, resolve_jump hstep (by simp), ← List.append_assoc, hrest]

theorem Leads.resolve_of_keep (h : Leads true links place components node)
    (hnode : ∀ target, node ≠ .link target) : place.resolve false links components = .ok node := by
  induction h with
  | here links place => exact resolve_nil
  | through hstep _ ih => rw [resolve_through hstep, ih hnode]
  | file hstep => simp [resolve_file hstep]
  | link hkeep hstep => exact absurd rfl (hnode _)
  | jump hstep hend _ ih => rw [resolve_jump hstep (by simp), ih hnode]

theorem Leads.exists_resolve_keep (h : Leads false links place components node) :
    ∃ found, place.resolve true links components = .ok found := by
  induction h with
  | here links place => exact ⟨_, resolve_nil⟩
  | through hstep _ ih =>
    rw [resolve_through hstep]
    exact ih
  | file hstep => exact ⟨_, by rw [resolve_file hstep, if_pos rfl]⟩
  | link hkeep hstep => cases hkeep
  | @jump links place component target rest node hstep hend _ ih =>
    by_cases hrest : rest = []
    · subst hrest
      exact ⟨_, resolve_link hstep⟩
    · rw [resolve_jump hstep (by simp [hrest])]
      exact ih

end Resolve

/-! ## Well-formed places -/

def WellFormed (place : Location) : Prop :=
  ∀ directory ∈ place.here :: place.above, directory.WellFormed

theorem WellFormed.here {place : Location} (h : place.WellFormed) : place.here.WellFormed :=
  h place.here (by simp)

theorem WellFormed.parent {place : Location} (h : place.WellFormed) : place.parent.WellFormed := by
  intro directory hdirectory
  obtain ⟨here, above⟩ := place
  cases above with
  | nil => exact h directory hdirectory
  | cons outer above => exact h directory (List.mem_cons_of_mem _ hdirectory)

theorem WellFormed.start {place : Location} (h : place.WellFormed) (path : Bytes) :
    (place.start path).WellFormed := by
  rw [Location.start]
  split_ifs with hrooted
  · intro directory hdirectory
    obtain rfl : directory = place.above.getLastD place.here := by simpa [root] using hdirectory
    exact h _ List.getLastD_mem_cons
  · exact h

theorem WellFormed.step {place next : Location} (h : place.WellFormed) {component : Bytes}
    (hstep : place.step component = .ok (.place next)) : next.WellFormed := by
  obtain ⟨-, rfl⟩ | ⟨-, ⟨-, rfl⟩ | ⟨-, rfl⟩ | ⟨-, access, entries, hchild, rfl⟩⟩ := step_cases hstep
  · exact h
  · exact h
  · exact h.parent
  · have hinner := h.here.of_mem ((h.here.child?_eq_some_iff component _).mp hchild)
    exact List.forall_mem_cons.mpr ⟨hinner, h⟩

theorem WellFormed.of_leads {keep : Bool} {links : Nat} {place : Location} {components : List Bytes}
    {node : FileNode} (hplace : place.WellFormed) (h : Leads keep links place components node) :
    node.WellFormed := by
  induction h with
  | here links place => exact hplace.here
  | through hstep _ ih => exact ih (hplace.step hstep)
  | file hstep => exact .file _
  | link hkeep hstep => exact .link _
  | jump hstep hend _ ih => exact ih (hplace.start _)

/-! ## Clean paths -/

/-- The cleaned components on a stack, the last one first, lead through directories from a place to
another one. -/
inductive Trail (rooted : Bool) (start : Location) : List Bytes → Location → Prop
  | nil : Trail rooted start [] start
  | name {stack : List Bytes} {place : Location} {component : Bytes} {access : Access}
      {entries : Entries} (hplace : Trail rooted start stack place)
      (hsearch : place.here.access.search = true)
      (hproper : component ≠ [] ∧ component ≠ utf8 "." ∧ component ≠ utf8 "..")
      (hchild : place.here.entries.child? component = some (.directory access entries)) :
      Trail rooted start (component :: stack) (place.enter ⟨access, entries⟩)
  | dots {stack : List Bytes} {place : Location} (hplace : Trail rooted start stack place)
      (hsearch : place.here.access.search = true) (hrooted : rooted = false)
      (hdots : ∀ component ∈ stack, component = utf8 "..") :
      Trail rooted start (utf8 ".." :: stack) place.parent

section Trail

variable {rooted keep : Bool} {links : Nat} {start place next : Location} {stack : List Bytes}

theorem step_dots (hsearch : place.here.access.search = true) :
    place.step (utf8 "..") = .ok (.place place.parent) := by
  have hdots := not_or.mp Path.dots_ne
  simp [step, hdots, hsearch]

theorem Trail.resolve_append (h : Trail rooted start stack place) (rest : List Bytes) :
    start.resolve keep links (stack.reverse ++ rest) = place.resolve keep links rest := by
  induction h generalizing rest with
  | nil => rfl
  | name hplace hsearch hproper hchild ih =>
    rw [List.reverse_cons, List.append_assoc, ih, List.singleton_append,
      resolve_through (step_directory hproper hsearch hchild)]
  | dots hplace hsearch hrooted hdots ih =>
    rw [List.reverse_cons, List.append_assoc, ih, List.singleton_append,
      resolve_through (step_dots hsearch)]

theorem Trail.push (h : Trail rooted start stack place) (hroot : rooted = true → start.above = [])
    {component : Bytes} (hstep : place.step component = .ok (.place next)) :
    Trail rooted start (Path.push rooted stack component) next := by
  obtain ⟨hnil, rfl⟩ | ⟨hsearch, hstep⟩ := step_cases hstep
  · simpa [Path.push, hnil] using h
  obtain ⟨hdot, rfl⟩ | ⟨rfl, rfl⟩ | ⟨hproper, access, entries, hchild, rfl⟩ := hstep
  · simpa [Path.push, hdot] using h
  · cases h with
    | nil =>
      rw [Path.push_dots_nil]
      cases rooted with
      | true =>
        have hparent : start.parent = start := by simp [parent, hroot rfl]
        rw [hparent]
        exact .nil
      | false => exact .dots .nil hsearch rfl (by simp)
    | name hplace _ hproper hchild =>
      rw [Path.push_dots_cons, if_neg hproper.2.2]
      exact hplace
    | dots hplace hsearch' hrooted hdots =>
      rw [Path.push_dots_cons, if_pos rfl]
      exact .dots (.dots hplace hsearch' hrooted hdots) hsearch hrooted (by simpa using hdots)
  · have hpush : Path.push rooted stack component = component :: stack := by
      simp [Path.push, hproper]
    rw [hpush]
    exact .name h hsearch hproper hchild

theorem Leads.trail {components : List Bytes} {node : FileNode} {directory : Directory}
    (h : Leads false links place components node) (hlinks : links = 0)
    (hnode : node = directory.node) (hplace : Trail rooted start stack place)
    (hroot : rooted = true → start.above = []) :
    ∃ inner : Location, inner.here = directory ∧
      Trail rooted start (components.foldl (Path.push rooted) stack) inner := by
  induction h generalizing stack with
  | here links place => exact ⟨place, Directory.node_injective hnode, hplace⟩
  | through hstep _ ih => exact ih hlinks hnode (hplace.push hroot hstep)
  | file hstep => cases hnode
  | link hkeep hstep => cases hkeep
  | jump hstep hend _ ih => cases hlinks

theorem Leads.resolve_of_zero {components : List Bytes} {node : FileNode} {fewer : Nat}
    (h : Leads false fewer place components node) (hlinks : fewer = 0) :
    place.resolve keep links components = .ok node := by
  induction h with
  | here links place => exact resolve_nil
  | through hstep _ ih => rw [resolve_through hstep, ih hlinks]
  | file hstep => simp [resolve_file hstep]
  | link hkeep hstep => cases hkeep
  | jump hstep hend _ ih => cases hlinks

end Trail

end Location

namespace FileTree

variable {tree : FileTree} {path : Bytes} {directory : Directory}

theorem wellFormed_ofEntries {entries : Entries} (h : (FileNode.directory {} entries).WellFormed) :
    (ofEntries entries).working.WellFormed :=
  List.forall_mem_singleton.mpr h

/-- The path is that of a directory, and not of a link to one, and its clean form leads there as
well. -/
structure LeadsTo (tree : FileTree) (path : Bytes) (directory : Directory) : Prop where
  itself : tree.inspectLink path = .ok directory.node
  clean : tree.inspect (Path.clean path) = .ok directory.node

theorem node_eq_resolve (keep : Bool) (hpath : path ≠ []) :
    tree.node keep path =
      (tree.working.start path).resolve keep linkLimit (path.splitAt Path.separator) :=
  if_neg hpath

theorem inspect_eq_ok_iff {node : FileNode} :
    tree.inspect path = .ok node ↔ tree.node false path = .ok node := by
  rw [inspect]
  cases tree.node false path <;> simp

theorem inspectLink_eq_ok_iff {node : FileNode} :
    tree.inspectLink path = .ok node ↔ tree.node true path = .ok node := by
  rw [inspectLink]
  cases tree.node true path <;> simp

theorem ne_nil_of_node {keep : Bool} {node : FileNode} (h : tree.node keep path = .ok node) :
    path ≠ [] := by
  rintro rfl
  cases h

theorem leads_of_node {keep : Bool} {node : FileNode} (h : tree.node keep path = .ok node) :
    Location.Leads keep linkLimit (tree.working.start path) (path.splitAt Path.separator) node := by
  rw [node_eq_resolve keep (ne_nil_of_node h)] at h
  exact Location.leads_of_resolve h

theorem exists_inspectLink (h : (tree.inspect path).isOk = true) :
    ∃ found, tree.inspectLink path = .ok found := by
  cases hnode : tree.inspect path with
  | error e =>
    rw [hnode] at h
    cases h
  | ok node =>
    have hnode := inspect_eq_ok_iff.mp hnode
    obtain ⟨found, hfound⟩ := (leads_of_node hnode).exists_resolve_keep
    rw [← node_eq_resolve true (ne_nil_of_node hnode)] at hfound
    exact ⟨found, inspectLink_eq_ok_iff.mpr hfound⟩

theorem LeadsTo.ne_nil (h : tree.LeadsTo path directory) : path ≠ [] :=
  ne_nil_of_node (inspectLink_eq_ok_iff.mp h.itself)

theorem LeadsTo.node_eq (h : tree.LeadsTo path directory) :
    tree.node false path = .ok directory.node := by
  have hleads := leads_of_node (inspectLink_eq_ok_iff.mp h.itself)
  rw [node_eq_resolve false h.ne_nil]
  exact hleads.resolve_of_keep (by simp [Directory.node])

theorem LeadsTo.node_clean (h : tree.LeadsTo path directory) :
    tree.node false (Path.clean path) = .ok directory.node :=
  inspect_eq_ok_iff.mp h.clean

theorem LeadsTo.wellFormed (h : tree.LeadsTo path directory) (htree : tree.working.WellFormed) :
    directory.WellFormed :=
  (htree.start path).of_leads (leads_of_node h.node_eq)

theorem start_clean (path : Bytes) :
    tree.working.start (Path.clean path) = tree.working.start path := by
  rw [Location.start, Location.start, Path.isRooted_clean]

theorem search_of_resolve {keep : Bool} {links : Nat} {place : Location} {component : Bytes}
    {rest : List Bytes} {node : FileNode} (hcomponent : component ≠ [])
    (h : place.resolve keep links (component :: rest) = .ok node) :
    place.here.access.search = true := by
  cases hsearch : place.here.access.search with
  | true => rfl
  | false =>
    have hdenied := Location.step_denied hcomponent hsearch
    cases (Location.resolve_error hdenied rest).symm.trans h

theorem step_dot {place : Location} (hsearch : place.here.access.search = true) :
    place.step (utf8 ".") = .ok (.place place) := by
  have hdot : utf8 "." ≠ [] := by decide
  simp [Location.step, hdot, hsearch]

-- The clean form of a path without components has a dot for them, or an empty one.
theorem node_clean_eq_ok_iff {node : FileNode} :
    tree.node false (Path.clean path) = .ok node ↔
      (tree.working.start path).resolve false linkLimit (Path.components path) = .ok node ∧
        (Path.isRooted path = false → (tree.working.start path).here.access.search = true) := by
  rw [node_eq_resolve false (Path.clean_ne_nil path), start_clean, Path.splitAt_clean]
  split_ifs with hrooted hnil hnil
  · simp [Location.resolve_through Location.step_nil, hnil, hrooted]
  · simp [Location.resolve_through Location.step_nil, hrooted]
  · constructor
    · intro h
      have hsearch := search_of_resolve (by decide) h
      rw [Location.resolve_through (step_dot hsearch)] at h
      exact ⟨hnil ▸ h, fun _ => hsearch⟩
    · intro h
      rw [Location.resolve_through (step_dot (h.2 (by simpa using hrooted)))]
      exact hnil ▸ h.1
  · obtain ⟨first, rest, hcomponents⟩ := List.exists_cons_of_ne_nil hnil
    have hfirst : first ≠ [] := (Path.ne_of_mem_components (by rw [hcomponents]; simp)).1
    rw [hcomponents]
    exact ⟨fun h => ⟨h, fun _ => search_of_resolve hfirst h⟩, fun h => h.1⟩

/-- A path that leads to a directory without a link does so in its clean form too. -/
theorem leadsTo_of_linkFree (hpath : path ≠ [])
    (h : (tree.working.start path).resolve false 0 (path.splitAt Path.separator) =
      .ok directory.node) : tree.LeadsTo path directory := by
  have hleads := Location.leads_of_resolve h
  have hroot : Path.isRooted path = true → (tree.working.start path).above = [] := by
    intro hrooted
    rw [Location.start, if_pos hrooted]
    rfl
  obtain ⟨inner, hinner, htrail⟩ := hleads.trail rfl rfl .nil hroot
  refine ⟨?_, ?_⟩
  · rw [inspectLink_eq_ok_iff, node_eq_resolve true hpath]
    exact hleads.resolve_of_zero rfl
  · rw [inspect_eq_ok_iff, node_clean_eq_ok_iff]
    refine ⟨?_, ?_⟩
    · rw [Path.components, ← List.append_nil (List.reverse _), htrail.resolve_append,
        Location.resolve_nil, hinner]
    · intro hrooted
      obtain ⟨b, rest, rfl⟩ := List.exists_cons_of_ne_nil hpath
      have hb : b ≠ Path.separator := by simpa [Path.isRooted] using hrooted
      obtain ⟨piece, pieces, hrest⟩ :=
        List.exists_cons_of_ne_nil (Bytes.splitAt_ne_nil Path.separator rest)
      rw [Bytes.splitAt_cons_of_ne Path.separator hb hrest] at h
      exact search_of_resolve (by simp) h

/-- The place of a directory from which the paths below its clean path are followed. -/
theorem exists_location_of_node_clean (h : tree.node false (Path.clean path) = .ok directory.node) :
    ∃ (links : Nat) (place : Location), place.here = directory ∧ ∀ rest,
      (tree.working.start path).resolve false linkLimit (Path.components path ++ rest) =
        place.resolve false links rest :=
  (Location.leads_of_resolve (node_clean_eq_ok_iff.mp h).1).resolve_append rfl

theorem node_join (hpath : path ≠ []) {name : Bytes} (hname : Path.IsName name) :
    tree.node false (Path.join path name) =
      (tree.working.start path).resolve false linkLimit (Path.components path ++ [name]) := by
  have hunder := Path.join_under hpath [] name
  rw [Path.under_nil, List.nil_append] at hunder
  have hcomponents : Path.components (path ++ Path.separator :: name) =
      Path.components path ++ [name] := by
    have h := Path.components_under hpath (List.forall_mem_singleton.mpr hname)
    rwa [← hunder, Path.join, if_neg hpath, Path.components_clean] at h
  have hrooted := Path.isRooted_append hpath (Path.separator :: name)
  rw [Path.join, if_neg hpath, node_eq_resolve false (Path.clean_ne_nil _), start_clean,
    Path.splitAt_clean, hcomponents, Location.start, hrooted, ← Location.start]
  split_ifs with h h' h'
  · simp at h'
  · rw [Location.resolve_through Location.step_nil]
  · simp at h'
  · rfl

theorem list_join (hpath : path ≠ [])
    (h : tree.node false (Path.clean path) = .ok directory.node) {name : Bytes}
    (hname : Path.IsName name) {access : Access} {entries : Entries}
    (hchild : directory.entries.child? name = some (.directory access entries)) :
    tree.list (Path.join path name) =
      if directory.access.search && access.list then .ok ⟨access, entries⟩
      else .error ⟨.opening, Path.join path name, .denied⟩ := by
  obtain ⟨links, place, rfl, hrest⟩ := exists_location_of_node_clean h
  rw [list, node_join hpath hname, hrest]
  cases hsearch : place.here.access.search with
  | false => rw [Location.resolve_error (Location.step_denied hname.ne_nil hsearch)]; rfl
  | true =>
    have hstep := Location.step_directory ⟨hname.ne_nil, hname.ne_dot, hname.ne_dots⟩ hsearch hchild
    rw [Location.resolve_through hstep, Location.resolve_nil]
    rfl

theorem list_entry (hpath : path ≠ [])
    (h : tree.node false (Path.clean path) = .ok directory.node) (hdirectory : directory.WellFormed)
    {entry : Bytes × FileNode} (hentry : entry ∈ directory.entries) (access : Access)
    (entries : Entries) (hnode : entry.2 = .directory access entries) :
    tree.list (Path.join path entry.1) =
      if directory.access.search && access.list then .ok ⟨access, entries⟩
      else .error ⟨.opening, Path.join path entry.1, .denied⟩ := by
  refine list_join hpath h (hdirectory.isName hentry) ?_
  rw [hdirectory.child?_eq_some_iff, ← hnode]
  exact hentry

theorem node_of_list (h : tree.list path = .ok directory) :
    tree.node false path = .ok directory.node := by
  rw [list] at h
  split at h
  · rename_i access entries hnode
    split_ifs at h
    cases h
    exact hnode
  all_goals cases h

theorem LeadsTo.list_eq (h : tree.LeadsTo path directory) :
    tree.list path = if directory.access.list then .ok directory
      else .error ⟨.opening, path, .denied⟩ := by
  rw [list, h.node_eq]
  rfl

end FileTree

end OrderLint
