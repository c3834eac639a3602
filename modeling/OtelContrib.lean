import OtelContrib.Apache.Decoration
import OtelContrib.Apache.HookContainer
import OtelContrib.Apache.Inheritance
import OtelContrib.Apache.Routing
import OtelContrib.Fluentd.Delivery
import OtelContrib.Fluentd.Descriptors
import OtelContrib.Fluentd.Export
import OtelContrib.Fluentd.OwnedAttributes
import OtelContrib.Fluentd.SocketAddr
import OtelContrib.Fluentd.Times
import OtelContrib.Geneva.ConnectionFields
import OtelContrib.Geneva.Conservation
import OtelContrib.Geneva.Delivery
import OtelContrib.Geneva.Descriptors
import OtelContrib.Geneva.DimensionOrder
import OtelContrib.Geneva.Export
import OtelContrib.Geneva.MissingTransport
import OtelContrib.Geneva.RoundTrip
import OtelContrib.Geneva.SocketAddr
import OtelContrib.Geneva.Transport
import OtelContrib.Httpd.Propagation
import OtelContrib.Nginx.BatchProcessor
import OtelContrib.Nginx.CustomAttributes
import OtelContrib.Nginx.FindHeader
import OtelContrib.Nginx.Locations
import OtelContrib.Nginx.Redaction
import OtelContrib.Nginx.TraceHeaders
import OtelContrib.Nginx.Upstream
import OtelContrib.NginxWebserver.Balance
import OtelContrib.NginxWebserver.NumberTexts
import OtelContrib.NginxWebserver.PayloadDecorator
import OtelContrib.NginxWebserver.Reports
import OtelContrib.NginxWebserver.ResponsePayload
import OtelContrib.NginxWebserver.VariablesDecorator
import OtelContrib.Prometheus.PushExporter
import OtelContrib.Prometheus.SanitizeNames
import OtelContrib.UserEvents.Content
import OtelContrib.UserEvents.Exporter
import OtelContrib.Webserver.ContextBalance
import OtelContrib.Webserver.Lifecycle
import OtelContrib.Webserver.Parenting
import OtelContrib.Webserver.Registry
import OtelContrib.Webserver.SegmentIterators
import OtelContrib.Webserver.SegmentNames
import OtelContrib.Webserver.Settings
