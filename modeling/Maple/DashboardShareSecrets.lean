import Maple.DashboardShare

/-! What of a stored dashboard a share still depends on. The stored document follows the schema:
data sources of both versions, and the display config with the places it keeps a query in. -/

namespace Maple.DashboardShare

open Json

/-! ## Stored data sources -/

abbrev Fields := List (String × Json)

inductive DataSource
  | v2 (endpoint : String) (params transform : Option Fields)
  | query (resultShape : ResultShape) (queries : List Json)
      (formulas comparison defaultLimit limit columns : Option Json) (transform : Option Fields)
  | rawSql (sql : String) (displayType granularitySeconds : Option Json)
      (transform : Option Fields)
  | route (endpoint : String) (params transform : Option Fields)
  | static (transform : Option Fields)

def DataSource.fields : DataSource → List (String × Option Json)
  | .v2 endpoint params transform =>
    [("endpoint", some (.string endpoint)), ("params", params.map .object),
      ("transform", transform.map .object)]
  | .query resultShape queries formulas comparison defaultLimit limit columns transform =>
    [("kind", some (.string "query")), ("resultShape", some (.string resultShape.text)),
      ("queries", some (.array queries)), ("formulas", formulas), ("comparison", comparison),
      ("defaultLimit", defaultLimit), ("limit", limit), ("columns", columns),
      ("transform", transform.map .object)]
  | .rawSql sql displayType granularitySeconds transform =>
    [("kind", some (.string "raw_sql")), ("sql", some (.string sql)), ("displayType", displayType),
      ("granularitySeconds", granularitySeconds), ("transform", transform.map .object)]
  | .route endpoint params transform =>
    [("kind", some (.string "route")), ("endpoint", some (.string endpoint)),
      ("params", params.map .object), ("transform", transform.map .object)]
  | .static transform => [("kind", some (.string "static")), ("transform", transform.map .object)]

def DataSource.toJson (dataSource : DataSource) : Json := .object (record dataSource.fields)

inductive SourceKind
  | query (resultShape : ResultShape)
  | rawSql
  | route
  | static
deriving Repr, DecidableEq

/-- What a source is, whichever version wrote it. -/
def DataSource.kind : DataSource → SourceKind
  | .v2 endpoint _ _ =>
    if endpoint = rawSqlEndpoint then .rawSql
    else
      match queryEndpointResultKinds endpoint with
      | some resultShape => .query resultShape
      | none => .route
  | .query resultShape .. => .query resultShape
  | .rawSql .. => .rawSql
  | .route .. => .route
  | .static _ => .static

def DataSource.transform : DataSource → Option Fields
  | .v2 _ _ transform => transform
  | .query _ _ _ _ _ _ _ transform => transform
  | .rawSql _ _ _ transform => transform
  | .route _ _ transform => transform
  | .static transform => transform

/-- What a viewer learns of a source. -/
def face (kind : SourceKind) (transform : Option Fields) : RedactedDataSource :=
  match kind with
  | .query resultShape => ⟨.query, some resultShape.text, transform.map .object⟩
  | .rawSql => ⟨.rawSql, none, transform.map .object⟩
  | .route => ⟨.route, none, transform.map .object⟩
  | .static => ⟨.static, none, transform.map .object⟩

/-- The display fields that hold no query. -/
inductive DisplayField
  | title | description | chartId | chartPresentation | xAxis | yAxis | seriesMapping
  | colorOverrides | stacked | curveType | unit | thresholds | prefixText | suffixText | columns
  | listDataSource | listLimit | listRootOnly | pie | histogram | heatmap | gauge | markdown
deriving Repr, DecidableEq

structure Sparkline where
  enabled : Bool
  dataSource : Option DataSource

structure Funnel where
  showStepPercent : Option Json
  steps : Option Json
  keyBy : Option Json
  windowSeconds : Option Json
  breakdownBy : Option Json
  filters : Option Fields
  variant : Option Json

structure Paths where
  anchor : Json
  direction : Option Json
  depth : Option Json
  branches : Option Json
  keyBy : Option Json
  windowSeconds : Option Json
  includes : Option Json
  exclude : Option Json
  filters : Option Fields

structure Display where
  plain : DisplayField → Option Json
  sparkline : Option Sparkline
  listWhereClause : Option String
  funnel : Option Funnel
  paths : Option Paths

def Sparkline.fields (sparkline : Sparkline) (dataSource : Option Json) :
    List (String × Option Json) :=
  [("enabled", some (.bool sparkline.enabled)), ("dataSource", dataSource)]

def Sparkline.toJson (sparkline : Sparkline) : Json :=
  .object (record (sparkline.fields (sparkline.dataSource.map DataSource.toJson)))

def Funnel.fields (funnel : Funnel) : List (String × Option Json) :=
  [("showStepPercent", funnel.showStepPercent), ("steps", funnel.steps), ("keyBy", funnel.keyBy),
    ("windowSeconds", funnel.windowSeconds), ("breakdownBy", funnel.breakdownBy),
    ("filters", funnel.filters.map .object), ("variant", funnel.variant)]

def Paths.fields (paths : Paths) : List (String × Option Json) :=
  [("anchor", some paths.anchor), ("direction", paths.direction), ("depth", paths.depth),
    ("branches", paths.branches), ("keyBy", paths.keyBy), ("windowSeconds", paths.windowSeconds),
    ("include", paths.includes), ("exclude", paths.exclude),
    ("filters", paths.filters.map .object)]

def Funnel.toJson (funnel : Funnel) : Json := .object (record funnel.fields)

def Paths.toJson (paths : Paths) : Json := .object (record paths.fields)

def Display.fieldsBefore (display : Display) : List (String × Option Json) :=
  [("title", display.plain .title), ("description", display.plain .description),
    ("chartId", display.plain .chartId), ("chartPresentation", display.plain .chartPresentation),
    ("xAxis", display.plain .xAxis), ("yAxis", display.plain .yAxis),
    ("seriesMapping", display.plain .seriesMapping),
    ("colorOverrides", display.plain .colorOverrides), ("stacked", display.plain .stacked),
    ("curveType", display.plain .curveType), ("unit", display.plain .unit),
    ("thresholds", display.plain .thresholds), ("prefix", display.plain .prefixText),
    ("suffix", display.plain .suffixText)]

def Display.fieldsAfter (display : Display) : List (String × Option Json) :=
  [("columns", display.plain .columns), ("listDataSource", display.plain .listDataSource),
    ("listWhereClause", display.listWhereClause.map .string),
    ("listLimit", display.plain .listLimit), ("listRootOnly", display.plain .listRootOnly),
    ("pie", display.plain .pie), ("funnel", display.funnel.map Funnel.toJson),
    ("paths", display.paths.map Paths.toJson), ("histogram", display.plain .histogram),
    ("heatmap", display.plain .heatmap), ("gauge", display.plain .gauge),
    ("markdown", display.plain .markdown)]

/-- The fields of a display, in the order of the schema, around its sparkline. -/
def Display.fields (display : Display) (sparkline : Option Json) : List (String × Option Json) :=
  display.fieldsBefore ++ ("sparkline", sparkline) :: display.fieldsAfter

def Display.toJson (display : Display) : Json :=
  .object (record (display.fields (display.sparkline.map Sparkline.toJson)))

/-- The sparkline a viewer sees. -/
def Sparkline.shown (sparkline : Sparkline) : Json :=
  .object (record (sparkline.fields
    (sparkline.dataSource.map fun source => (face source.kind source.transform).toJson)))

/-- What a viewer learns of a data source. -/
def DataSource.seen (dataSource : DataSource) : SourceKind × Option Fields :=
  (dataSource.kind, dataSource.transform)

end Maple.DashboardShare
