import EntityForge.Entity.Basic
import EntityForge.Naming

/-!
# Generated source files

An entity is written as four files: the entity class, its repository, its service and its
controller. Each is a list of lines, and every line ends with a newline.
-/

namespace EntityForge

/-- A file with its path from the root of the package. -/
structure GeneratedFile where
  path : String
  content : String
deriving DecidableEq, Repr

/-- The text of a file with these lines. -/
def fileOfLines (lines : List String) : String :=
  String.join (lines.map (· ++ "\n"))

namespace TargetType

/-- The line that imports the type, if it has to be imported. -/
def importLines (t : TargetType) : List String :=
  match t.import? with
  | some name => ["import " ++ name ++ ";"]
  | none => []

end TargetType

namespace PlainField

/-- The lines of a plain member; `generated` says whether the database makes the identifiers. -/
def lines (f : PlainField) (generated : Bool) : List String :=
  [""]
  ++ (if f.isId then ["    @Id"] else [])
  ++ (if f.isId && generated then
        ["    @GeneratedValue(strategy = GenerationType.IDENTITY)"]
      else [])
  ++ ["    @Column(name = \"" ++ f.columnName ++ "\")",
    "    private " ++ f.target.name ++ " " ++ f.fieldName ++ ";"]

end PlainField

namespace ManyToOne

/-- The lines of a member that holds another entity. -/
def lines (r : ManyToOne) : List String :=
  ["", "    @ManyToOne(fetch = FetchType.LAZY)",
    "    @JoinColumn(name = \"" ++ r.joinColumn ++ "\")",
    "    private " ++ r.targetClass ++ " " ++ r.fieldName ++ ";"]

end ManyToOne

namespace OneToMany

/-- The lines of a member that lists other entities. -/
def lines (r : OneToMany) : List String :=
  ["", "    @OneToMany(mappedBy = \"" ++ r.mappedBy ++ "\")",
    "    private List<" ++ r.targetClass ++ "> " ++ r.fieldName ++ ";"]

end OneToMany

namespace Entity

/-- The type of the identifier; entities without one are looked up by number. -/
def keyType (e : Entity) : TargetType :=
  e.idType?.getD .long

/-- The lines of the entity class. -/
def entityLines (e : Entity) : List String :=
  ["package " ++ e.packageName ++ ".entity;",
    "",
    "import jakarta.persistence.*;",
    "import lombok.Getter;",
    "import lombok.Setter;"]
  ++ e.imports.map (fun i => "import " ++ i ++ ";")
  ++ ["",
    "@Entity",
    "@Table(name = \"" ++ e.tableName ++ "\")",
    "@Getter",
    "@Setter",
    "public class " ++ e.className ++ " \x7b"]
  ++ e.fields.flatMap (·.lines e.hasIncrement)
  ++ e.manyToOne.flatMap (·.lines)
  ++ e.oneToMany.flatMap (·.lines)
  ++ ["\x7d"]

/-- The lines of the repository interface. -/
def repositoryLines (e : Entity) : List String :=
  let cls := e.className
  let key := e.keyType
  ["package " ++ e.packageName ++ ".repository;",
    "",
    "import " ++ e.packageName ++ ".entity." ++ cls ++ ";",
    "import org.springframework.data.jpa.repository.JpaRepository;",
    "import org.springframework.stereotype.Repository;"]
  ++ key.importLines
  ++ ["",
    "@Repository",
    "public interface " ++ cls ++ "Repository extends JpaRepository<" ++ cls ++ ", " ++ key.name
      ++ "> \x7b",
    "\x7d"]

/-- The lines of the service class. -/
def serviceLines (e : Entity) : List String :=
  let cls := e.className
  let key := e.keyType
  let repo := camelCase cls ++ "Repository"
  ["package " ++ e.packageName ++ ".service;",
    "",
    "import " ++ e.packageName ++ ".entity." ++ cls ++ ";",
    "import " ++ e.packageName ++ ".repository." ++ cls ++ "Repository;",
    "import org.springframework.stereotype.Service;",
    "import java.util.List;",
    "import java.util.Optional;"]
  ++ key.importLines
  ++ ["",
    "@Service",
    "public class " ++ cls ++ "Service \x7b",
    "    private final " ++ cls ++ "Repository " ++ repo ++ ";",
    "",
    "    public " ++ cls ++ "Service(" ++ cls ++ "Repository " ++ repo ++ ") \x7b",
    "        this." ++ repo ++ " = " ++ repo ++ ";",
    "    \x7d",
    "",
    "    public List<" ++ cls ++ "> findAll() \x7b",
    "        return " ++ repo ++ ".findAll();",
    "    \x7d",
    "",
    "    public Optional<" ++ cls ++ "> findById(" ++ key.name ++ " id) \x7b",
    "        return " ++ repo ++ ".findById(id);",
    "    \x7d",
    "",
    "    public " ++ cls ++ " save(" ++ cls ++ " entity) \x7b",
    "        return " ++ repo ++ ".save(entity);",
    "    \x7d",
    "",
    "    public void deleteById(" ++ key.name ++ " id) \x7b",
    "        " ++ repo ++ ".deleteById(id);",
    "    \x7d",
    "\x7d"]

/-- The lines of the controller class. -/
def controllerLines (e : Entity) : List String :=
  let cls := e.className
  let key := e.keyType
  let service := camelCase cls ++ "Service"
  ["package " ++ e.packageName ++ ".controller;",
    "",
    "import " ++ e.packageName ++ ".entity." ++ cls ++ ";",
    "import " ++ e.packageName ++ ".service." ++ cls ++ "Service;",
    "import org.springframework.http.ResponseEntity;",
    "import org.springframework.web.bind.annotation.*;",
    "import java.util.List;"]
  ++ key.importLines
  ++ ["",
    "@RestController",
    "@RequestMapping(\"/api/" ++ e.tableName ++ "\")",
    "public class " ++ cls ++ "Controller \x7b",
    "    private final " ++ cls ++ "Service " ++ service ++ ";",
    "",
    "    public " ++ cls ++ "Controller(" ++ cls ++ "Service " ++ service ++ ") \x7b",
    "        this." ++ service ++ " = " ++ service ++ ";",
    "    \x7d",
    "",
    "    @GetMapping",
    "    public List<" ++ cls ++ "> list() \x7b",
    "        return " ++ service ++ ".findAll();",
    "    \x7d",
    "",
    "    @GetMapping(\"/\x7bid\x7d\")",
    "    public ResponseEntity<" ++ cls ++ "> get(@PathVariable " ++ key.name ++ " id) \x7b",
    "        return " ++ service ++ ".findById(id)",
    "                .map(ResponseEntity::ok)",
    "                .orElse(ResponseEntity.notFound().build());",
    "    \x7d",
    "",
    "    @PostMapping",
    "    public " ++ cls ++ " create(@RequestBody " ++ cls ++ " entity) \x7b",
    "        return " ++ service ++ ".save(entity);",
    "    \x7d",
    "",
    "    @DeleteMapping(\"/\x7bid\x7d\")",
    "    public void delete(@PathVariable " ++ key.name ++ " id) \x7b",
    "        " ++ service ++ ".deleteById(id);",
    "    \x7d",
    "\x7d"]

/-- The four files of an entity. -/
def files (e : Entity) : List GeneratedFile :=
  [⟨"entity/" ++ e.className ++ ".java", fileOfLines e.entityLines⟩,
    ⟨"repository/" ++ e.className ++ "Repository.java", fileOfLines e.repositoryLines⟩,
    ⟨"service/" ++ e.className ++ "Service.java", fileOfLines e.serviceLines⟩,
    ⟨"controller/" ++ e.className ++ "Controller.java", fileOfLines e.controllerLines⟩]

end Entity

end EntityForge
