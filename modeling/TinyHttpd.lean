import TinyHttpd.Httpd.HeaderBlock
import TinyHttpd.Httpd.Route
import TinyHttpd.Lib.LexicalPath
import TinyHttpd.Httpd.DocumentRoot
import TinyHttpd.Httpd.StaticContent
import TinyHttpd.Httpd.ContentLength
import TinyHttpd.Lib.Descriptors
import TinyHttpd.Lib.Run
import TinyHttpd.Server.Machine
import TinyHttpd.Server.Discipline
import TinyHttpd.Server.Ownership
import TinyHttpd.Server.Scripts
import TinyHttpd.Server.Sigpipe
import TinyHttpd.Server.Isolation
import TinyHttpd.Server.Response
import TinyHttpd.Server.Drain
import TinyHttpd.Relay.Machine
import TinyHttpd.Relay.Deadlock
import TinyHttpd.Relay.Refinement
import TinyHttpd.Lib.SqlLex
import TinyHttpd.Lib.SqlTemplate
import TinyHttpd.Cgi.Scan
import TinyHttpd.Cgi.Statements
import TinyHttpd.Cgi.SqlShape
import TinyHttpd.Httpd.BodyRelay
import TinyHttpd.Relay.Exact
import TinyHttpd.Httpd.Incomplete
import TinyHttpd.Cgi.Connecter
import TinyHttpd.Cgi.PostData
import TinyHttpd.Cgi.Report
import TinyHttpd.Cgi.FormTrip
import TinyHttpd.Cgi.Database
import TinyHttpd.Cgi.Leftover
import TinyHttpd.Httpd.RequestLine
import TinyHttpd.Httpd.Buffers
import TinyHttpd.Httpd.Execution
import TinyHttpd.Httpd.Resolution
import TinyHttpd.Httpd.FileView
import TinyHttpd.Httpd.HeaderEnd
import TinyHttpd.Server.Resources
import TinyHttpd.Cgi.EmptyFields
import TinyHttpd.Cgi.FieldBuffers
import TinyHttpd.Lib.SqlWhere
import TinyHttpd.Lib.SqlChange
import TinyHttpd.Cgi.SearchForm
import TinyHttpd.Cgi.Search
import TinyHttpd.Cgi.MathAdd
import TinyHttpd.Httpd.ScanBounds
import TinyHttpd.Cgi.Select
import TinyHttpd.Cgi.TypeOptions
import TinyHttpd.Cgi.ChangePage
import TinyHttpd.Cgi.ListPage
import TinyHttpd.Cgi.Shop
import TinyHttpd.Lib.HtmlForm
import TinyHttpd.Cgi.Forms
import TinyHttpd.Cgi.Pages
import TinyHttpd.Cgi.FormRequests
import TinyHttpd.Lib.Environ
import TinyHttpd.Cgi.Programs
import TinyHttpd.Httpd.Message
import TinyHttpd.Cgi.Site
import TinyHttpd.Cgi.ListLinks
import TinyHttpd.Cgi.Navigation
import TinyHttpd.Cgi.Responses
import TinyHttpd.Cgi.StaticPages
import TinyHttpd.Cgi.Links
import TinyHttpd.Cgi.Browser
