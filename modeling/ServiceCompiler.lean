import ServiceCompiler.Main
import ServiceCompiler.Proofs.Routes.BuiltFiles
import ServiceCompiler.Shell.Host
import ServiceCompiler.Proofs.Directive.Composition
import ServiceCompiler.Proofs.Sql.ConcurrentMigrators
import ServiceCompiler.Proofs.Routes.Endpoints
import ServiceCompiler.Proofs.Routes.DeclaredPath
import ServiceCompiler.Proofs.Service.RoundTrip
import ServiceCompiler.Proofs.Code.Independence
import ServiceCompiler.Proofs.Code.ModuleRequirements
import ServiceCompiler.Proofs.CommandLine.FileEffects
import ServiceCompiler.Proofs.Sql.Instrumentation
import ServiceCompiler.Proofs.Routes.BoundArguments
import ServiceCompiler.Proofs.Directive.UsableColumns
import ServiceCompiler.Proofs.Directive.ColumnCommas
import ServiceCompiler.Proofs.Sql.CatalogQuery
import ServiceCompiler.Proofs.Sql.TableExists
import ServiceCompiler.Proofs.Sql.ServerName
import ServiceCompiler.Proofs.Sql.TimeParsing
import ServiceCompiler.Proofs.Scaffold.PackageFile
import ServiceCompiler.Proofs.Scaffold.StartPage
import ServiceCompiler.Proofs.Settings.RoundTrip
